import Mathlib.Data.List.Basic
import Mathlib.Data.List.Infix

/-!
# Occurrences from left to right
-/

namespace ThreadIpc.Lib

variable {α : Type*} [DecidableEq α]

def firstIndex (pattern : List α) : List α → Option Nat
  | [] => if pattern = [] then some 0 else none
  | c :: rest =>
      if pattern <+: c :: rest then some 0 else (firstIndex pattern rest).map (· + 1)

/-- How often the pattern occurs, an occurrence being counted if it begins behind the last one. -/
def occurrences (pattern : List α) : List α → Nat
  | [] => if pattern = [] then 1 else 0
  | c :: rest =>
      if pattern <+: c :: rest then occurrences pattern (rest.drop (pattern.length - 1)) + 1
      else occurrences pattern rest
termination_by text => text.length
decreasing_by
  all_goals simp only [List.length_drop, List.length_cons]
  all_goals omega

/-- The text with the pattern replaced wherever it occurs behind the last occurrence, and the number of
replacements. The empty pattern occurs in front of every element and at the end. -/
def leftToRight (old new : List α) : List α → List α × Nat
  | [] => if old = [] then (new, 1) else ([], 0)
  | c :: rest =>
      if old = [] then
        let (result, count) := leftToRight old new rest
        (new ++ c :: result, count + 1)
      else if old <+: c :: rest then
        let (result, count) := leftToRight old new (rest.drop (old.length - 1))
        (new ++ result, count + 1)
      else
        let (result, count) := leftToRight old new rest
        (c :: result, count)
termination_by text => text.length
decreasing_by
  all_goals simp only [List.length_drop, List.length_cons]
  all_goals omega

theorem leftToRight_count (old new text : List α) :
    (leftToRight old new text).2 = occurrences old text := by
  induction text using occurrences.induct old with
  | case1 empty => simp [leftToRight, occurrences, empty]
  | case2 some_ => simp [leftToRight, occurrences, some_]
  | case3 c rest front ih =>
      by_cases empty : old = []
      · subst empty
        simpa [leftToRight, occurrences] using ih
      · simp [leftToRight, occurrences, empty, front, ih]
  | case4 c rest notFront ih =>
      have some_ : old ≠ [] := fun empty => notFront (empty ▸ List.nil_prefix)
      simp [leftToRight, occurrences, some_, notFront, ih]

section
variable {old : List α} (new : List α) {text : List α}

theorem firstIndex_nil (text : List α) : firstIndex [] text = some 0 := by
  cases text <;> simp [firstIndex]

theorem firstIndex_occurs {i : Nat} (found : firstIndex old text = some i) :
    text = text.take i ++ old ++ text.drop (i + old.length) := by
  induction text generalizing i with
  | nil =>
      by_cases empty : old = []
      · simp [empty]
      · simp [firstIndex, empty] at found
  | cons c rest ih =>
      by_cases front : old <+: c :: rest
      · simp only [firstIndex, if_pos front, Option.some.injEq] at found
        obtain ⟨after, split⟩ := front
        rw [← found, List.take_zero, List.nil_append, Nat.zero_add, ← split, List.drop_left]
      · simp only [firstIndex, if_neg front, Option.map_eq_some_iff] at found
        obtain ⟨j, found, rfl⟩ := found
        rw [Nat.add_right_comm, List.take_succ_cons, List.drop_succ_cons]
        exact congrArg (c :: ·) (ih found)

variable (some_ : old ≠ [])
include some_

theorem leftToRight_absent (absent : firstIndex old text = none) :
    leftToRight old new text = (text, 0) := by
  induction text with
  | nil => simp [leftToRight, some_]
  | cons c rest ih =>
      by_cases front : old <+: c :: rest
      · simp [firstIndex, front] at absent
      · simp only [firstIndex, if_neg front, Option.map_eq_none_iff] at absent
        simp [leftToRight, some_, front, ih absent]

theorem leftToRight_first {i : Nat} (found : firstIndex old text = some i) :
    leftToRight old new text =
      (text.take i ++ new ++ (leftToRight old new (text.drop (i + old.length))).1,
        (leftToRight old new (text.drop (i + old.length))).2 + 1) := by
  induction text generalizing i with
  | nil => simp [firstIndex, some_] at found
  | cons c rest ih =>
      obtain ⟨length, positive⟩ := Nat.exists_eq_succ_of_ne_zero (List.length_pos_of_ne_nil some_).ne'
      by_cases front : old <+: c :: rest
      · simp only [firstIndex, if_pos front, Option.some.injEq] at found
        simp [leftToRight, some_, front, ← found, positive]
      · simp only [firstIndex, if_neg front, Option.map_eq_some_iff] at found
        obtain ⟨j, found, rfl⟩ := found
        simp [leftToRight, some_, front, ih found, Nat.add_right_comm j 1]

end

end ThreadIpc.Lib

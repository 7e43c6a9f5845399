import Mathlib.Algebra.Group.Nat.Defs
import ThreadIpc.Lib.Replacing
import ThreadIpc.Lib.Signed

/-!
# `ReplaceAll`

A turn of the loop takes one unit of the fuel. Memory is not bounded; the count is an `int`.
-/

namespace ThreadIpc.StringUtils

open Lib (firstIndex leftToRight occurrences signed)

section
variable {α : Type} [DecidableEq α]

def find (str pattern : List α) (offset : Nat) : Option Nat :=
  if offset ≤ str.length then (firstIndex pattern (str.drop offset)).map (offset + ·) else none

def replace (str : List α) (index length : Nat) (replacement : List α) : List α :=
  str.take index ++ replacement ++ str.drop (index + length)

def replaceLoop (oldPattern newPattern : List α) :
    Nat → List α → Nat → Int → Option (List α × Int)
  | 0, _, _, _ => none
  | fuel + 1, str, offset, replacementsMade =>
      match find str oldPattern offset with
      | none => some (str, replacementsMade)
      | some index => do
          let replacementsMade ← signed 32 (replacementsMade + 1)
          replaceLoop oldPattern newPattern fuel
            (replace str index oldPattern.length newPattern) (index + newPattern.length)
            replacementsMade

def ReplaceAll (fuel : Nat) (str oldPattern newPattern : List α) : Option (List α × Int) :=
  replaceLoop oldPattern newPattern fuel str 0 0

def ReplacesAll (str oldPattern newPattern : List α) : Prop :=
  ∃ enough, ∀ fuel ≥ enough, ReplaceAll fuel str oldPattern newPattern =
    some ((leftToRight oldPattern newPattern str).1,
      ((leftToRight oldPattern newPattern str).2 : Int))

variable {oldPattern newPattern : List α}

theorem find_done (done rest : List α) :
    find (done ++ rest) oldPattern done.length =
      (firstIndex oldPattern rest).map (done.length + ·) := by
  simp [find]

omit [DecidableEq α] in
theorem replace_done (done rest replacement : List α) (i length : Nat) :
    replace (done ++ rest) (done.length + i) length replacement =
      done ++ rest.take i ++ replacement ++ rest.drop (i + length) := by
  simp [replace, Nat.add_assoc, List.take_length_add_append, List.drop_length_add_append]

theorem replaceLoop_done (some_ : oldPattern ≠ []) (fuel : Nat) (done rest : List α) (made : Nat)
    (enough : rest.length < fuel) (fits : made < 2 ^ 31) :
    replaceLoop oldPattern newPattern fuel (done ++ rest) done.length made =
      if made + (leftToRight oldPattern newPattern rest).2 < 2 ^ 31 then
        some (done ++ (leftToRight oldPattern newPattern rest).1,
          ((made + (leftToRight oldPattern newPattern rest).2 : Nat) : Int))
      else none := by
  induction fuel generalizing done rest made with
  | zero => contradiction
  | succ fuel ih =>
      rw [replaceLoop, find_done]
      cases found : firstIndex oldPattern rest with
      | none => simpa [Lib.leftToRight_absent newPattern some_ found] using fits
      | some i =>
          have occurs : rest.length = _ := congrArg List.length (Lib.firstIndex_occurs found)
          have positive := List.length_pos_of_ne_nil some_
          simp only [List.length_append, List.length_take, List.length_drop] at occurs
          have shorter : (rest.drop (i + oldPattern.length)).length < fuel := by
            rw [List.length_drop]
            omega
          have offset : (done ++ rest.take i ++ newPattern).length =
              done.length + i + newPattern.length := by
            simp only [List.length_append, List.length_take]
            omega
          simp only [Option.map_some, Lib.leftToRight_first newPattern some_ found, replace_done,
            ← offset]
          by_cases next : made + 1 < 2 ^ 31
          · have counted : signed 32 ((made : Int) + 1) = some ((made + 1 : Nat) : Int) :=
              Lib.signed_eq (by omega) (by omega)
            rw [counted, Option.bind_eq_bind, Option.bind_some, ih _ _ _ shorter next,
              Nat.add_assoc made 1, Nat.add_comm 1]
            simp only [List.append_assoc]
          · have counted : signed 32 ((made : Int) + 1) = none :=
              Lib.signed_eq_none_iff.mpr (Or.inr (by omega))
            rw [counted, if_neg (by omega)]
            rfl

theorem replaceLoop_empty (fuel : Nat) (str : List α) (offset : Nat) (made : Int)
    (inside : offset ≤ str.length) : replaceLoop [] newPattern fuel str offset made = none := by
  induction fuel generalizing str offset made with
  | zero => rfl
  | succ fuel ih =>
      have found : find str [] offset = some offset := by
        simp [find, inside, Lib.firstIndex_nil]
      rw [replaceLoop, found]
      cases counted : signed 32 (made + 1) with
      | none => rfl
      | some next =>
          simp only [Option.bind_eq_bind, Option.bind_some]
          apply ih
          simp only [replace, List.length_append, List.length_take, List.length_drop]
          omega

/-- The replacement is right if there is a pattern, and its occurrences are as many as an `int` holds. -/
theorem replacesAll_iff (str oldPattern newPattern : List α) :
    ReplacesAll str oldPattern newPattern ↔
      oldPattern ≠ [] ∧ occurrences oldPattern str < 2 ^ 31 := by
  rw [← Lib.leftToRight_count oldPattern newPattern]
  by_cases empty : oldPattern = []
  · subst empty
    refine iff_of_false (fun ⟨enough, returns⟩ => ?_) fun both => both.1 rfl
    have returned := returns enough (Nat.le_refl enough)
    rw [ReplaceAll, replaceLoop_empty _ _ _ _ (Nat.zero_le _)] at returned
    contradiction
  · have result (fuel : Nat) (enough : str.length < fuel) :=
      @replaceLoop_done α _ oldPattern newPattern empty fuel [] str 0 enough (Nat.two_pow_pos 31)
    simp only [List.nil_append, List.length_nil, Nat.zero_add, Int.natCast_zero] at result
    constructor
    · intro ⟨enough, returns⟩
      have returned := returns (enough + str.length + 1) (by omega)
      rw [ReplaceAll, result _ (by omega)] at returned
      exact ⟨empty, (Option.ite_none_right_eq_some.mp returned).1⟩
    · intro ⟨_, fits⟩
      refine ⟨str.length + 1, fun fuel enough => ?_⟩
      rw [ReplaceAll, result fuel enough, if_pos fits]

theorem replaceAll_empty_pattern : ¬ ReplacesAll ['a'] [] ['b'] := by
  intro ⟨enough, returns⟩
  have returned := returns enough (Nat.le_refl enough)
  rw [ReplaceAll, replaceLoop_empty _ _ _ _ (Nat.zero_le _)] at returned
  contradiction

example : ReplaceAll 5 ['a', 'a', 'a', 'a'] ['a'] ['a', 'a'] = some (List.replicate 8 'a', 4) := by
  decide +kernel

end

end ThreadIpc.StringUtils

import ThreadIpc.DatabaseNameTable.Model
import Std.Data.String.ToInt

/-!
# Basenames are distinct

The version stands after the last `[`, and only a basename with a version ends in `]`.
-/

namespace ThreadIpc.DatabaseNameTable

theorem append_cons_cancel {α : Type*} {mark : α} {before before' after after' : List α}
    (noMark : mark ∉ after) (noMark' : mark ∉ after')
    (equal : before ++ mark :: after = before' ++ mark :: after') :
    before = before' ∧ after = after' := by
  rcases List.append_eq_append_iff.mp equal with ⟨between, rfl, tail⟩ | ⟨between, rfl, tail⟩
  · cases between with
    | nil => exact ⟨(List.append_nil _).symm, (List.cons.inj tail).2⟩
    | cons first between =>
        obtain ⟨rfl, rfl⟩ := List.cons.inj tail
        exact absurd (List.mem_append_right _ List.mem_cons_self) noMark
  · cases between with
    | nil => exact ⟨List.append_nil _, (List.cons.inj tail).2.symm⟩
    | cons first between =>
        obtain ⟨rfl, rfl⟩ := List.cons.inj tail
        exact absurd (List.mem_append_right _ List.mem_cons_self) noMark'

theorem bracket_notMem_repr (version : Nat) : '[' ∉ (toString (version : Int)).toList := by
  intro member
  have digits : (toString (version : Int)).toList = Nat.toDigits 10 version := by
    exact Nat.toList_repr
  rw [digits] at member
  have digit := Nat.isDigit_of_mem_toDigits (by decide) (by decide) member
  revert digit
  decide

theorem toString_version_inj {version version' : Nat}
    (equal : toString (version : Int) = toString (version' : Int)) : version = version' :=
  Nat.repr_injective equal

theorem versionBasename_zero (name : String) :
    (versionBasename name 0).toList = name.toList ++ "#database".toList := by
  rw [versionBasename, if_pos rfl, String.toList_append]

theorem versionBasename_of_ne_zero (name : String) {version : Int} (later : version ≠ 0) :
    (versionBasename name version).toList =
      ((name.toList ++ "#database".toList) ++ '[' :: (toString version).toList) ++ [']'] := by
  rw [versionBasename, if_neg later]
  simp [String.toList_append]

theorem getLast?_versionBasename (name : String) (version : Int) :
    (versionBasename name version).toList.getLast? = if version = 0 then some 'e' else some ']' := by
  by_cases zero : version = 0
  · rw [if_pos zero, zero, versionBasename_zero]
    simp
  · rw [if_neg zero, versionBasename_of_ne_zero name zero, List.getLast?_concat]

theorem versionBasename_injective {name name' : String} {version version' : Nat}
    (equal : versionBasename name version = versionBasename name' version') :
    name = name' ∧ version = version' := by
  have texts := congrArg String.toList equal
  have lasts := congrArg List.getLast? texts
  rw [getLast?_versionBasename, getLast?_versionBasename] at lasts
  by_cases zero : (version : Int) = 0
  · have zero' : (version' : Int) = 0 := by
      by_contra nonzero
      rw [if_pos zero, if_neg nonzero] at lasts
      contradiction
    rw [zero, zero', versionBasename_zero, versionBasename_zero] at texts
    have names := List.append_cancel_right texts
    exact ⟨String.toList_injective names, by omega⟩
  · have nonzero' : (version' : Int) ≠ 0 := by
      intro zero'
      rw [if_neg zero, if_pos zero'] at lasts
      contradiction
    rw [versionBasename_of_ne_zero name zero, versionBasename_of_ne_zero name' nonzero'] at texts
    obtain ⟨names, versions⟩ := append_cons_cancel (bracket_notMem_repr version)
      (bracket_notMem_repr version') (List.append_cancel_right texts)
    exact ⟨String.toList_injective (List.append_cancel_right names),
      toString_version_inj (String.toList_injective versions)⟩

end ThreadIpc.DatabaseNameTable

import Mathlib.Data.List.DropRight
import Mathlib.Data.UInt

/-!
# Paths

`File::GetBaseName` and `File::GetParentDirectory`, where the separator is `/`. The lengths of
strings are `size_t`, the length of the parent is an `int`.
-/

namespace ThreadIpc.File

abbrev String16 := List UInt16

def kPathSeparator : UInt16 := 47

/-- The loop is on the characters in reverse. -/
def eraseFront (keep : Nat) : String16 → String16
  | [] => []
  | c :: rest =>
      if keep < rest.length + 1 ∧ c = kPathSeparator then eraseFront keep rest else c :: rest

def eraseSeparators (keep : Nat) (path : String16) : String16 :=
  (eraseFront keep path.reverse).reverse

def rfind (s : String16) (c : UInt16) : Option Nat :=
  (s.reverse.findIdx? (· == c)).map (s.length - 1 - ·)

def GetBaseName (path : String16) : String16 :=
  if path.length ≤ 1 then path
  else
    let collapsedPath := eraseSeparators 0 path
    let basename := match rfind collapsedPath kPathSeparator with
      | none => collapsedPath
      | some idx => collapsedPath.drop (idx + 1)
    if basename = [] ∧ 0 < path.length then [kPathSeparator] else basename

def int32 (n : Int) : Int := n.bmod (2 ^ 32)

/-- The parent, if the function returns true. -/
def GetParentDirectory (path : String16) : Option String16 :=
  if path = [] then none
  else
    let parentLength := int32 (path.length - (GetBaseName path).length - 1)
    if parentLength < 1 then none
    else some (eraseSeparators 1 (path.take parentLength.toNat))

section Erase

variable {keep : Nat} {path : String16}

theorem eraseSeparators_concat (fits : keep ≤ path.length) :
    eraseSeparators keep (path ++ [kPathSeparator]) = eraseSeparators keep path := by
  rw [eraseSeparators, List.reverse_append, List.reverse_singleton, List.singleton_append,
    eraseFront, List.length_reverse, if_pos ⟨Nat.lt_succ_of_le fits, rfl⟩, eraseSeparators]

theorem eraseSeparators_append (fits : keep ≤ path.length) (n : Nat) :
    eraseSeparators keep (path ++ List.replicate n kPathSeparator) = eraseSeparators keep path := by
  induction n with
  | zero => rw [List.replicate_zero, List.append_nil]
  | succ n ih =>
      rw [List.replicate_succ', ← List.append_assoc, eraseSeparators_concat, ih]
      rw [List.length_append]
      exact Nat.le_add_right_of_le fits

theorem eraseSeparators_eq_self (ends : ∀ c ∈ path.getLast?, c ≠ kPathSeparator) :
    eraseSeparators keep path = path := by
  rcases List.eq_nil_or_concat path with rfl | ⟨front, last, rfl⟩
  · rfl
  · rw [List.concat_eq_append] at ends ⊢
    have other : last ≠ kPathSeparator := by simpa using ends
    rw [eraseSeparators, List.reverse_append, List.reverse_singleton, List.singleton_append,
      eraseFront, if_neg fun both => other both.2, List.reverse_cons, List.reverse_reverse]

theorem exists_erased (keep : Nat) (path : String16) :
    ∃ n, path = eraseSeparators keep path ++ List.replicate n kPathSeparator := by
  induction path using List.reverseRecOn with
  | nil => exact ⟨0, rfl⟩
  | append_singleton path last ih =>
      by_cases erased : keep ≤ path.length ∧ last = kPathSeparator
      · obtain ⟨fits, rfl⟩ := erased
        obtain ⟨n, same⟩ := ih
        refine ⟨n + 1, ?_⟩
        rw [eraseSeparators_concat fits, List.replicate_succ', ← List.append_assoc, ← same]
      · refine ⟨0, ?_⟩
        rw [eraseSeparators, List.reverse_append, List.reverse_singleton, List.singleton_append,
          eraseFront, List.length_reverse, if_neg]
        · simp
        · rintro ⟨more, separator⟩
          exact erased ⟨Nat.le_of_lt_succ more, separator⟩

end Erase

end ThreadIpc.File

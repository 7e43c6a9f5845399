import Mathlib.Data.Set.Card

/-!
# Reference counts

`Counts holds count` says that `count` holders have a reference.
-/

namespace ThreadIpc.Lib

variable {H : Type*} {holds later : H → Prop} {count : Nat} {holder other : H}

def Counts (holds : H → Prop) (count : Nat) : Prop :=
  {holder | holds holder}.encard = count

namespace Counts

theorem congr (counts : Counts holds count) (same : ∀ holder, later holder ↔ holds holder) :
    Counts later count := by
  have equal : later = holds := by
    funext holder
    exact propext (same holder)
  rwa [equal]

theorem single (only : ∀ other, later other ↔ other = holder) : Counts later 1 := by
  have equal : {other | later other} = {holder} := by
    ext other
    simp [only]
  simp [Counts, equal]

theorem gain (counts : Counts holds count) (new : ¬ holds holder)
    (after : ∀ other, later other ↔ other = holder ∨ holds other) : Counts later (count + 1) := by
  have equal : {other | later other} = insert holder {other | holds other} := by
    ext other
    simp [after]
  rw [Counts, equal, Set.encard_insert_of_notMem (by simpa using new), counts]
  simp

theorem lose (counts : Counts holds count) (had : holds holder)
    (after : ∀ other, later other ↔ holds other ∧ other ≠ holder) : Counts later (count - 1) := by
  have equal : {other | later other} = {other | holds other} \ {holder} := by
    ext other
    simp [after]
  rw [Counts, equal, Set.encard_sdiff_singleton_of_mem (by simpa using had), counts]
  simp

theorem hand (counts : Counts holds count) (had : holds holder) (new : ¬ holds other)
    (after : ∀ third, later third ↔ third = other ∨ holds third ∧ third ≠ holder) : Counts later count := by
  have equal : {third | later third} = insert other ({third | holds third} \ {holder}) := by
    ext third
    simp [after]
  rw [Counts, equal, Set.encard_exchange (by simpa using new) (by simpa using had), counts]

theorem eq_zero (counts : Counts holds count) (none_ : ∀ holder, ¬ holds holder) : count = 0 := by
  have empty : {holder | holds holder} = ∅ := Set.eq_empty_of_forall_notMem none_
  rw [Counts, empty, Set.encard_empty] at counts
  exact (Nat.cast_eq_zero.mp counts.symm)

theorem pos (counts : Counts holds count) (had : holds holder) : 0 < count := by
  apply Nat.pos_of_ne_zero
  rintro rfl
  have empty : {holder | holds holder} = ∅ := by
    simpa [Counts] using counts
  have member : holder ∈ {holder | holds holder} := had
  simp [empty] at member

end Counts

end ThreadIpc.Lib

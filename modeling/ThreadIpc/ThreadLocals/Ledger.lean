import ThreadIpc.ThreadLocals.Model
import Mathlib.Data.List.Nodup
import Mathlib.Data.List.Count

/-!
# The ledger of stored values

Where each stored value is: in one entry, untouched or with its destructor running, or destroyed.
-/

namespace ThreadIpc.ThreadLocals

variable {V D : Type}

structure Ledger (entries : Nat × Nat → Entry V D) (stored : List (Stored V D))
    (destroyed : List Nat) (running : List (Nat × Nat)) : Prop where
  recorded : ∀ cell, (entries cell).valid = true →
    stored[(entries cell).number]? = some (entries cell).stored
  unique : ∀ one other, (entries one).valid = true → (entries other).valid = true →
    (entries one).number = (entries other).number → one = other
  count : ∀ cell, (entries cell).valid = true →
    destroyed.count (entries cell).number = if cell ∈ running then 1 else 0
  once : ∀ number, destroyed.count number ≤ 1
  fresh : ∀ number, stored.length ≤ number → destroyed.count number = 0
  accounted : ∀ number value, stored[number]? = some value → value.isOwed = true →
    destroyed.count number = 1 ∨ ∃ cell, (entries cell).valid = true ∧ (entries cell).number = number
  inDestructor : ∀ cell ∈ running, (entries cell).hasDestructor = true
  nodup : running.Nodup

variable {entries : Nat × Nat → Entry V D} {stored : List (Stored V D)} {destroyed : List Nat}
  {running : List (Nat × Nat)}

theorem hasDestructor_valid {entry : Entry V D} (has : entry.hasDestructor = true) :
    entry.valid = true := by
  rw [Entry.hasDestructor, Bool.and_eq_true] at has
  exact has.1

theorem isOwed_hasDestructor {entry : Entry V D} (owed : entry.isOwed = true) :
    entry.hasDestructor = true := by
  simp only [Entry.isOwed, Stored.isOwed, Bool.and_eq_true] at owed
  rw [Entry.hasDestructor, owed.1, owed.2.2]
  rfl

theorem Ledger.empty : Ledger (fun _ => (Entry.empty : Entry V D)) [] [] [] where
  recorded := fun _ valid => absurd valid Bool.false_ne_true
  unique := fun _ _ valid => absurd valid Bool.false_ne_true
  count := fun _ valid => absurd valid Bool.false_ne_true
  once := fun _ => Nat.zero_le 1
  fresh := fun _ _ => rfl
  accounted := by simp
  inDestructor := by simp
  nodup := .nil

theorem Ledger.number_lt (ledger : Ledger entries stored destroyed running) {cell : Nat × Nat}
    (valid : (entries cell).valid = true) : (entries cell).number < stored.length :=
  (List.getElem?_eq_some_iff.mp (ledger.recorded cell valid)).1

theorem Ledger.call (ledger : Ledger entries stored destroyed running) {cell : Nat × Nat}
    (has : (entries cell).hasDestructor = true) (idle : cell ∉ running) :
    Ledger entries stored (destroyed ++ [(entries cell).number]) (cell :: running) := by
  have valid := hasDestructor_valid has
  have before : destroyed.count (entries cell).number = 0 := by
    rw [ledger.count cell valid, if_neg idle]
  have counts (number : Nat) : (destroyed ++ [(entries cell).number]).count number =
      destroyed.count number + if number = (entries cell).number then 1 else 0 := by
    rw [List.count_append, List.count_singleton]
    by_cases same : number = (entries cell).number
    · simp [same]
    · simp [same, Ne.symm same]
  refine ⟨ledger.recorded, ledger.unique, ?_, ?_, ?_, ?_, ?_, ?_⟩
  · intro other otherValid
    rw [counts]
    by_cases here : other = cell
    · simp [here, before]
    · have differs : (entries other).number ≠ (entries cell).number := fun same =>
        here (ledger.unique other cell otherValid valid same)
      simp only [differs, List.mem_cons, here, false_or, if_false, Nat.add_zero]
      exact ledger.count other otherValid
  · intro number
    rw [counts]
    split
    · rename_i same
      exact Nat.le_of_eq (by rw [same, before])
    · exact ledger.once number
  · intro number beyond
    have differs : number ≠ (entries cell).number := by
      have := ledger.number_lt valid
      omega
    rw [counts, if_neg differs]
    exact ledger.fresh number beyond
  · intro number value isStored owed
    rw [counts]
    by_cases same : number = (entries cell).number
    · exact .inr ⟨cell, valid, same.symm⟩
    · rw [if_neg same]
      exact ledger.accounted number value isStored owed
  · intro other member
    rcases List.mem_cons.mp member with rfl | member
    · exact has
    · exact ledger.inDestructor other member
  · exact List.nodup_cons.mpr ⟨idle, ledger.nodup⟩

theorem Ledger.drop (ledger : Ledger entries stored destroyed running)
    {fewer : Nat × Nat → Entry V D} {rest : List (Nat × Nat)}
    (kept : ∀ cell, (fewer cell).valid = true → fewer cell = entries cell)
    (dropped : ∀ cell, (entries cell).isOwed = true → fewer cell = entries cell ∨ cell ∈ running)
    (same : ∀ cell, (fewer cell).valid = true → (cell ∈ rest ↔ cell ∈ running))
    (sublist : rest.Sublist running) (stays : ∀ cell ∈ rest, fewer cell = entries cell) :
    Ledger fewer stored destroyed rest := by
  refine ⟨?_, ?_, ?_, ledger.once, ledger.fresh, ?_, ?_, ledger.nodup.sublist sublist⟩
  · intro cell valid
    have keeps := kept cell valid
    rw [keeps] at valid ⊢
    exact ledger.recorded cell valid
  · intro one other oneValid otherValid
    have keepsOne := kept one oneValid
    have keepsOther := kept other otherValid
    rw [keepsOne] at oneValid ⊢
    rw [keepsOther] at otherValid ⊢
    exact ledger.unique one other oneValid otherValid
  · intro cell valid
    have now := same cell valid
    have keeps := kept cell valid
    rw [keeps] at valid ⊢
    simp only [now]
    exact ledger.count cell valid
  · intro number value isStored owed
    rcases ledger.accounted number value isStored owed with once | ⟨cell, valid, rfl⟩
    · exact .inl once
    · have recorded := ledger.recorded cell valid
      rw [isStored] at recorded
      have entryOwed : (entries cell).isOwed = true := by
        rw [Entry.isOwed, valid, ← Option.some.inj recorded, owed]
        rfl
      rcases dropped cell entryOwed with stays | member
      · exact .inr ⟨cell, by rw [stays, valid], by rw [stays]⟩
      · exact .inl (by rw [ledger.count cell valid, if_pos member])
  · intro cell member
    rw [stays cell member]
    exact ledger.inDestructor cell (sublist.subset member)

theorem invalidate_other (entries : Nat × Nat → Entry V D) {cell other : Nat × Nat}
    (elsewhere : other ≠ cell) :
    Function.update entries cell (entries cell).invalidate other = entries other :=
  Function.update_of_ne elsewhere _ _

theorem invalidate_kept (entries : Nat × Nat → Entry V D) (cell other : Nat × Nat)
    (valid : (Function.update entries cell (entries cell).invalidate other).valid = true) :
    other ≠ cell := by
  rintro rfl
  rw [Function.update_self] at valid
  contradiction

theorem Ledger.finish {cell : Nat × Nat}
    (ledger : Ledger entries stored destroyed (cell :: running)) :
    Ledger (Function.update entries cell (entries cell).invalidate) stored destroyed running := by
  have idle : cell ∉ running := (List.nodup_cons.mp ledger.nodup).1
  refine ledger.drop ?_ ?_ ?_ (List.sublist_cons_self _ _) ?_
  · intro other valid
    exact invalidate_other entries (invalidate_kept entries cell other valid)
  · intro other _
    by_cases here : other = cell
    · exact .inr (by simp [here])
    · exact .inl (invalidate_other entries here)
  · intro other valid
    simp [invalidate_kept entries cell other valid]
  · rintro other member
    exact invalidate_other entries fun here => idle (here ▸ member)

theorem Ledger.clear (ledger : Ledger entries stored destroyed running) {cell : Nat × Nat}
    (none : (entries cell).hasDestructor = false) :
    Ledger (Function.update entries cell (entries cell).invalidate) stored destroyed running := by
  have idle : cell ∉ running := by
    intro member
    rw [ledger.inDestructor cell member] at none
    contradiction
  refine ledger.drop ?_ ?_ (fun _ _ => Iff.rfl) (List.Sublist.refl _) ?_
  · intro other valid
    exact invalidate_other entries (invalidate_kept entries cell other valid)
  · intro other owed
    refine .inl (invalidate_other entries ?_)
    rintro rfl
    rw [isOwed_hasDestructor owed] at none
    contradiction
  · intro other member
    exact invalidate_other entries fun here => idle (here ▸ member)

theorem Ledger.store (ledger : Ledger entries stored destroyed running) {cell : Nat × Nat}
    (vacant : (entries cell).valid = false) (value : Stored V D) :
    Ledger (Function.update entries cell ⟨value, true, stored.length⟩) (stored ++ [value]) destroyed
      running := by
  have idle : cell ∉ running := by
    intro member
    rw [hasDestructor_valid (ledger.inDestructor cell member)] at vacant
    contradiction
  have here : Function.update entries cell ⟨value, true, stored.length⟩ cell =
      ⟨value, true, stored.length⟩ :=
    Function.update_self _ _ _
  have there {other : Nat × Nat} (elsewhere : other ≠ cell) :
      Function.update entries cell ⟨value, true, stored.length⟩ other = entries other :=
    Function.update_of_ne elsewhere _ _
  refine ⟨?_, ?_, ?_, ledger.once, ?_, ?_, ?_, ledger.nodup⟩
  · intro other valid
    by_cases same : other = cell
    · rw [same, here]
      simp
    · rw [there same] at valid ⊢
      rw [List.getElem?_append_left (ledger.number_lt valid)]
      exact ledger.recorded other valid
  · intro one other oneValid otherValid numbers
    by_cases oneHere : one = cell <;> by_cases otherHere : other = cell
    · rw [oneHere, otherHere]
    · rw [there otherHere] at otherValid numbers
      rw [oneHere, here] at numbers
      have numbers : stored.length = (entries other).number := numbers
      exact absurd (ledger.number_lt otherValid) (by omega)
    · rw [there oneHere] at oneValid numbers
      rw [otherHere, here] at numbers
      have numbers : (entries one).number = stored.length := numbers
      exact absurd (ledger.number_lt oneValid) (by omega)
    · rw [there oneHere] at oneValid numbers
      rw [there otherHere] at otherValid numbers
      exact ledger.unique one other oneValid otherValid numbers
  · intro other valid
    by_cases same : other = cell
    · rw [same, here, if_neg idle]
      exact ledger.fresh _ (Nat.le_refl _)
    · rw [there same] at valid ⊢
      exact ledger.count other valid
  · intro number beyond
    rw [List.length_append] at beyond
    exact ledger.fresh number (by omega)
  · intro number other isStored owed
    by_cases old : number < stored.length
    · rw [List.getElem?_append_left old] at isStored
      rcases ledger.accounted number other isStored owed with once | ⟨place, valid, rfl⟩
      · exact .inl once
      · have elsewhere : place ≠ cell := by
          rintro rfl
          rw [vacant] at valid
          contradiction
        exact .inr ⟨place, by rw [there elsewhere, valid], by rw [there elsewhere]⟩
    · have new : number = stored.length := by
        have := (List.getElem?_eq_some_iff.mp isStored).1
        rw [List.length_append, List.length_singleton] at this
        omega
      exact .inr ⟨cell, by rw [here], by rw [here, new]⟩
  · intro other member
    rw [there fun same => idle (same ▸ member)]
    exact ledger.inDestructor other member

end ThreadIpc.ThreadLocals

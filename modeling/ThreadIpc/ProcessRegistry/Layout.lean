import Mathlib.Data.List.Nodup
import Mathlib.Data.Finset.Dedup
import ThreadIpc.ProcessRegistry.Model

namespace ThreadIpc.ProcessRegistry

def slots (ids : List IpcProcessId) : List IpcProcessId :=
  ids ++ List.replicate (kMaxProcesses - ids.length) kInvalidProcessId

structure Ids where
  list : List IpcProcessId
  valid : kInvalidProcessId ∉ list
  distinct : list.Nodup
  fits : list.length ≤ kMaxProcesses

theorem takeWhile_slots {ids : List IpcProcessId} (valid : kInvalidProcessId ∉ ids) :
    (slots ids).takeWhile (· != kInvalidProcessId) = ids := by
  have valid_ne : ∀ id ∈ ids, (id != kInvalidProcessId) = true := by
    intro id mem
    exact bne_iff_ne.mpr fun invalid => valid (invalid ▸ mem)
  rw [slots, List.takeWhile_append_of_pos valid_ne, List.takeWhile_replicate]
  simp

theorem slots_set_last (ids : List IpcProcessId) (last : IpcProcessId)
    (room : ids.length < kMaxProcesses) :
    (slots (ids ++ [last])).set ids.length kInvalidProcessId = slots ids := by
  have split : kMaxProcesses - ids.length = (kMaxProcesses - (ids ++ [last]).length) + 1 := by
    simp only [List.length_append, List.length_singleton]
    omega
  rw [slots, slots, split, List.replicate_succ, List.append_assoc, List.set_append_right _ _ le_rfl]
  simp

theorem slots_set_empty (ids : List IpcProcessId) (id : IpcProcessId)
    (room : ids.length < kMaxProcesses) : (slots ids).set ids.length id = slots (ids ++ [id]) := by
  have split : kMaxProcesses - ids.length = (kMaxProcesses - (ids ++ [id]).length) + 1 := by
    simp only [List.length_append, List.length_singleton]
    omega
  rw [slots, slots, split, List.replicate_succ, List.append_assoc, List.set_append_right _ _ le_rfl]
  simp

theorem slots_set (ids : List IpcProcessId) {i : Nat} (id : IpcProcessId) (inside : i < ids.length) :
    (slots ids).set i id = slots (ids.set i id) := by
  rw [slots, slots, List.set_append_left _ _ inside, List.length_set]

theorem slots_getD (ids : List IpcProcessId) {i : Nat} (inside : i < ids.length) :
    (slots ids).getD i kInvalidProcessId = ids[i] := by
  rw [slots, List.getD_eq_getElem?_getD, List.getElem?_append_left inside,
    List.getElem?_eq_getElem inside, Option.getD_some]

theorem mem_slots {ids : List IpcProcessId} {id : IpcProcessId} (valid : id ≠ kInvalidProcessId) :
    id ∈ slots ids ↔ id ∈ ids := by
  simp [slots, List.mem_replicate, valid]

section Registry
variable {registry : Registry} {ids : List IpcProcessId}

theorem contents_of_slots (layout : registry.processes = slots ids)
    (valid : kInvalidProcessId ∉ ids) : registry.contents = ids := by
  rw [Registry.contents, layout, takeWhile_slots valid]

theorem emptySlot_of_slots (layout : registry.processes = slots ids)
    (valid : kInvalidProcessId ∉ ids) :
    registry.emptySlot? = if ids.length < kMaxProcesses then some ids.length else none := by
  have no_zero : ids.findIdx? (· == kInvalidProcessId) = none := by
    rw [List.findIdx?_eq_none_iff]
    intro id mem
    exact beq_eq_false_iff_ne.mpr fun invalid => valid (invalid ▸ mem)
  rw [Registry.emptySlot?, layout, slots, List.findIdx?_append, no_zero, List.findIdx?_replicate]
  by_cases room : ids.length < kMaxProcesses
  · rw [if_pos ⟨Nat.sub_pos_of_lt room, beq_self_eq_true _⟩, if_pos room, Option.map_some, Nat.zero_add]
    rfl
  · simp [room, Nat.sub_eq_zero_of_le (not_lt.mp room)]

theorem ourIndex_of_slots (layout : registry.processes = slots ids) (id : ValidId) :
    registry.ourIndex? id = ids.findIdx? (· == id.val) := by
  have invalid : (kInvalidProcessId == id.val) = false :=
    beq_eq_false_iff_ne.mpr fun same => id.property same.symm
  rw [Registry.ourIndex?, layout, slots, List.findIdx?_append, List.findIdx?_replicate]
  simp [invalid]

theorem processAt_of_slots (layout : registry.processes = slots ids) {i : Nat}
    (inside : i < ids.length) : registry.processAt i = ids[i] := by
  rw [Registry.processAt, layout, slots_getD ids inside]

theorem lastValidIndex_of_slots (layout : registry.processes = slots ids)
    (valid : kInvalidProcessId ∉ ids) {i : Nat} (inside : i < ids.length) :
    registry.lastValidIndex i = ids.length - 1 := by
  have rest : (slots ids).drop (i + 1) =
      ids.drop (i + 1) ++ List.replicate (kMaxProcesses - ids.length) kInvalidProcessId := by
    rw [slots, List.drop_append_of_le_length inside]
  have valid_ne : ∀ id ∈ ids.drop (i + 1), (id != kInvalidProcessId) = true := by
    intro id mem
    exact bne_iff_ne.mpr fun invalid => valid (invalid ▸ List.mem_of_mem_drop mem)
  rw [Registry.lastValidIndex, layout, rest, List.takeWhile_append_of_pos valid_ne,
    List.takeWhile_replicate]
  simp
  omega

theorem repairWrites_of_slots (layout : registry.processes = slots ids)
    (valid : kInvalidProcessId ∉ ids) (distinct : ids.Nodup) : registry.repairWrites = [] := by
  rw [Registry.repairWrites, contents_of_slots layout valid]
  cases count : ids.length with
  | zero => rfl
  | succ lastValid =>
      have inside : lastValid < ids.length := by omega
      have not_before : ids[lastValid] ∉ ids.take lastValid := by
        have parts : (ids.take lastValid ++ ids.drop lastValid).Nodup := by
          rwa [List.take_append_drop]
        rw [List.drop_eq_getElem_cons inside] at parts
        intro before
        exact List.disjoint_of_nodup_append parts before List.mem_cons_self
      simp only [processAt_of_slots layout inside]
      rw [layout, slots, List.take_append_of_le_length inside.le, if_neg not_before]

theorem repairWrites_of_duplicate {last : IpcProcessId}
    (layout : registry.processes = slots (ids ++ [last])) (valid : kInvalidProcessId ∉ ids)
    (duplicate : last ∈ ids) :
    registry.repairWrites =
      [.bumpRevision, .setProcess ids.length kInvalidProcessId] := by
  have valid_last : kInvalidProcessId ∉ ids ++ [last] := by
    simp only [List.mem_append, List.mem_singleton, not_or]
    exact ⟨valid, fun same => valid (same ▸ duplicate)⟩
  have inside : ids.length < (ids ++ [last]).length := by simp
  have last_at : registry.processAt ids.length = last := by
    rw [processAt_of_slots layout inside]
    simp
  have before : registry.processes.take ids.length = ids := by
    rw [layout, slots, List.append_assoc, List.take_left]
  rw [Registry.repairWrites, contents_of_slots layout valid_last, List.length_append]
  simp only [List.length_singleton, last_at, before, duplicate, if_true]

end Registry

end ThreadIpc.ProcessRegistry

import Mathlib.Data.List.Basic
import Mathlib.Data.Nat.ModEq

namespace ThreadIpc.Lib.Ring

variable {α : Type*}

/-- The `count` cells from position `start` on, going round a ring of `size` cells. -/
def slice (cells : Nat → α) (size start count : Nat) : List α :=
  (List.range count).map fun i => cells ((start + i) % size)

/-- The stores that put `data` at position `start`, each an address and a value. -/
def stores (size start : Nat) : List α → List (Nat × α)
  | [] => []
  | value :: rest => (start % size, value) :: stores size (start + 1) rest

def store (cells : Nat → α) (written : Nat × α) : Nat → α :=
  Function.update cells written.1 written.2

section Slice
variable {cells : Nat → α} {size start count : Nat}

@[simp] theorem length_slice : (slice cells size start count).length = count := by
  simp [slice]

theorem slice_zero : slice cells size start 0 = [] :=
  rfl

theorem slice_add (first second : Nat) : slice cells size start (first + second) =
    slice cells size start first ++ slice cells size (start + first) second := by
  simp [slice, List.range_add, Function.comp_def, Nat.add_assoc]

theorem take_slice {fewer : Nat} (small : fewer ≤ count) :
    (slice cells size start count).take fewer = slice cells size start fewer := by
  obtain ⟨later, rfl⟩ := Nat.exists_eq_add_of_le small
  rw [slice_add, List.take_left' length_slice]

theorem drop_slice {fewer : Nat} (small : fewer ≤ count) :
    (slice cells size start count).drop fewer = slice cells size (start + fewer) (count - fewer) := by
  obtain ⟨later, rfl⟩ := Nat.exists_eq_add_of_le small
  rw [slice_add, List.drop_left' length_slice, Nat.add_sub_cancel_left]

theorem slice_mod : slice cells size (start % size) count = slice cells size start count := by
  simp only [slice, Nat.mod_add_mod]

theorem slice_around : slice cells size (start + size) count = slice cells size start count := by
  rw [← slice_mod, Nat.add_mod_right, slice_mod]

theorem slice_rotate {moved : Nat} (small : moved ≤ size) :
    slice cells size (start + moved) size =
      slice cells size (start + moved) (size - moved) ++ slice cells size start moved := by
  have around : start + moved + (size - moved) = start + size := by omega
  have whole : slice cells size (start + moved) (size - moved + moved) =
      slice cells size (start + moved) (size - moved) ++ slice cells size start moved := by
    rw [slice_add, around, slice_around]
  rwa [Nat.sub_add_cancel small] at whole

theorem slice_congr {cells' : Nat → α}
    (same : ∀ i < count, cells' ((start + i) % size) = cells ((start + i) % size)) :
    slice cells' size start count = slice cells size start count :=
  List.map_congr_left fun i member => same i (List.mem_range.mp member)

theorem slice_eq_contiguous (inside : start + count ≤ size) :
    slice cells size start count = (List.range count).map fun i => cells (start + i) := by
  refine List.map_congr_left fun i member => ?_
  have before := List.mem_range.mp member
  rw [Nat.mod_eq_of_lt (by omega)]

theorem slice_eq_of_getElem {data : List α}
    (equal : ∀ i, ∀ inside : i < data.length, cells ((start + i) % size) = data[i]) :
    slice cells size start data.length = data := by
  refine List.ext_getElem length_slice fun i _ inside => ?_
  simp only [slice, List.getElem_map, List.getElem_range, equal i inside]

theorem eq_of_slice_append {first second : List α} {total : Nat}
    (equal : slice cells size start total = first ++ second) :
    slice cells size start first.length = first ∧
      slice cells size (start + first.length) second.length = second := by
  have length : total = first.length + second.length := by
    simpa using congrArg List.length equal
  rw [length, slice_add] at equal
  exact List.append_inj equal length_slice

end Slice

section Stores
variable {size start : Nat} {data : List α} {cells : Nat → α} {remaining : List (Nat × α)}
  {written : Nat × α}

theorem add_mod_inj {i j : Nat} (iSmall : i < size) (jSmall : j < size)
    (same : (start + i) % size = (start + j) % size) : i = j := by
  have equal : i ≡ j [MOD size] := Nat.ModEq.add_left_cancel' start same
  exact Nat.ModEq.eq_of_lt_of_lt equal iSmall jSmall

theorem stores_mod (start : Nat) : stores size (start % size) data = stores size start data := by
  induction data generalizing start with
  | nil => rfl
  | cons value rest ih =>
      have next : stores size (start % size + 1) rest = stores size (start + 1) rest := by
        rw [← ih (start % size + 1), Nat.mod_add_mod, ih]
      simp only [stores, Nat.mod_mod, next]

theorem stores_append (first second : List α) : stores size start (first ++ second) =
    stores size start first ++ stores size (start + first.length) second := by
  induction first generalizing start with
  | nil => simp [stores]
  | cons value rest ih =>
      simp only [List.cons_append, stores, ih, List.length_cons, Nat.add_assoc, Nat.add_comm 1]

theorem mem_stores : written ∈ stores size start data ↔
    ∃ i, ∃ inside : i < data.length, written = ((start + i) % size, data[i]) := by
  induction data generalizing start with
  | nil => simp [stores]
  | cons value rest ih =>
      rw [stores, List.mem_cons, ih]
      constructor
      · rintro (rfl | ⟨i, inside, rfl⟩)
        · exact ⟨0, by simp, rfl⟩
        · refine ⟨i + 1, by simpa using inside, ?_⟩
          simp [Nat.add_assoc, Nat.add_comm 1]
      · rintro ⟨i, inside, rfl⟩
        cases i with
        | zero => exact .inl rfl
        | succ i =>
            refine .inr ⟨i, by simpa using inside, ?_⟩
            simp [Nat.add_assoc, Nat.add_comm 1]

/-- Some of the stores of `data` have been made, in any order, and `remaining` are still to come. -/
structure Storing (cells : Nat → α) (size start : Nat) (data : List α)
    (remaining : List (Nat × α)) : Prop where
  planned : ∀ written ∈ remaining, ∃ i, ∃ inside : i < data.length,
    written = ((start + i) % size, data[i])
  made : ∀ i, ∀ inside : i < data.length,
    cells ((start + i) % size) = data[i] ∨ ((start + i) % size, data[i]) ∈ remaining

theorem storing_start : Storing cells size start data (stores size start data) where
  planned := fun _ member => mem_stores.mp member
  made := fun i inside => .inr (mem_stores.mpr ⟨i, inside, rfl⟩)

theorem Storing.mod (storing : Storing cells size (start % size) data remaining) :
    Storing cells size start data remaining := by
  obtain ⟨planned, made⟩ := storing
  simp only [Nat.mod_add_mod] at planned made
  exact ⟨planned, made⟩

theorem Storing.store [DecidableEq α] (storing : Storing cells size start data remaining)
    (fits : data.length ≤ size) (member : written ∈ remaining) :
    Storing (Ring.store cells written) size start data (remaining.erase written) := by
  refine ⟨fun other left => storing.planned other (List.mem_of_mem_erase left), fun i inside => ?_⟩
  obtain ⟨j, insideJ, rfl⟩ := storing.planned written member
  by_cases same : i = j
  · cases same
    exact .inl (Function.update_self ..)
  · have elsewhere : (start + i) % size ≠ (start + j) % size := fun equal =>
      same (add_mod_inj (by omega) (by omega) equal)
    rcases storing.made i inside with done | left
    · refine .inl ((Function.update_of_ne elsewhere ..).trans done)
    · refine .inr ((List.mem_erase_of_ne ?_).mpr left)
      exact fun equal => elsewhere (congrArg Prod.fst equal)

theorem Storing.slice_eq (storing : Storing cells size start data []) :
    slice cells size start data.length = data :=
  slice_eq_of_getElem fun i inside => (storing.made i inside).resolve_right List.not_mem_nil

theorem Storing.slice_of_used {used : Nat}
    (storing : Storing cells size (start + used) data remaining)
    (fits : used + data.length ≤ size) (member : written ∈ remaining) :
    slice (Ring.store cells written) size start used = slice cells size start used := by
  obtain ⟨i, inside, rfl⟩ := storing.planned written member
  refine slice_congr fun j before => Function.update_of_ne (fun equal => ?_) ..
  rw [Nat.add_assoc] at equal
  have same := add_mod_inj (by omega) (by omega) equal
  omega

def storeAll (cells : Nat → α) (written : List (Nat × α)) : Nat → α :=
  written.foldl store cells

theorem Storing.storeAll [DecidableEq α] (storing : Storing cells size start data remaining)
    (fits : data.length ≤ size) :
    Storing (Ring.storeAll cells remaining) size start data [] := by
  induction remaining generalizing cells with
  | nil => exact storing
  | cons first rest ih =>
      have next := storing.store fits List.mem_cons_self
      rw [List.erase_cons_head] at next
      exact ih next

theorem Storing.slice_storeAll_of_used [DecidableEq α] {used : Nat}
    (storing : Storing cells size (start + used) data remaining)
    (fits : used + data.length ≤ size) :
    slice (Ring.storeAll cells remaining) size start used = slice cells size start used := by
  induction remaining generalizing cells with
  | nil => rfl
  | cons first rest ih =>
      have next := storing.store (by omega) List.mem_cons_self
      rw [List.erase_cons_head] at next
      exact (ih next).trans (storing.slice_of_used fits List.mem_cons_self)

def overwrite (cells : Nat → α) (size start : Nat) (data : List α) : Nat → α := fun address =>
  if address < size then (data[(address + (size - start % size)) % size]?).getD (cells address)
  else cells address

theorem add_distance_mod {address : Nat} (inside : address < size) :
    (start + (address + (size - start % size)) % size) % size = address := by
  have small : start % size < size := Nat.mod_lt _ (by omega)
  have around : start % size + (address + (size - start % size)) = address + size := by omega
  rw [Nat.add_mod_mod, ← Nat.mod_add_mod, around, Nat.add_mod_right, Nat.mod_eq_of_lt inside]

theorem Storing.overwrite_store (storing : Storing cells size start data remaining)
    (member : written ∈ remaining) (fits : data.length ≤ size) :
    overwrite (Ring.store cells written) size start data = overwrite cells size start data := by
  obtain ⟨i, inside, rfl⟩ := storing.planned written member
  funext address
  by_cases here : address = (start + i) % size
  · have small : address < size := here ▸ Nat.mod_lt _ (by omega)
    have index : (address + (size - start % size)) % size = i := by
      refine @add_mod_inj size start _ _ (Nat.mod_lt _ (by omega)) (by omega) ?_
      rw [add_distance_mod small, here]
    rw [overwrite, overwrite, if_pos small, if_pos small, index, List.getElem?_eq_getElem inside]
    rfl
  · simp only [overwrite, Ring.store, Function.update_of_ne here]

theorem Storing.storeAll_eq [DecidableEq α] (storing : Storing cells size start data remaining)
    (fits : data.length ≤ size) : Ring.storeAll cells remaining = overwrite cells size start data := by
  induction remaining generalizing cells with
  | nil =>
      funext address
      show cells address = _
      by_cases small : address < size
      · rw [overwrite, if_pos small]
        by_cases inside : (address + (size - start % size)) % size < data.length
        · have made := (storing.made _ inside).resolve_right List.not_mem_nil
          rw [add_distance_mod small] at made
          rw [List.getElem?_eq_getElem inside, made]
          rfl
        · rw [List.getElem?_eq_none (Nat.le_of_not_lt inside)]
          rfl
      · rw [overwrite, if_neg small]
  | cons first rest ih =>
      have next := storing.store fits List.mem_cons_self
      rw [List.erase_cons_head] at next
      exact (ih next).trans (storing.overwrite_store List.mem_cons_self fits)

theorem slice_storeAll [DecidableEq α] (fits : data.length ≤ size) :
    slice (storeAll cells (stores size start data)) size start size =
      data ++ slice cells size (start + data.length) (size - data.length) := by
  have storing : Storing cells size start data (stores size start data) := storing_start
  have around : start + data.length + (size - data.length) = start + size := by omega
  have again : Storing cells size (start + data.length + (size - data.length)) data
      (stores size start data) := by
    refine Storing.mod ?_
    rw [around, Nat.add_mod_right]
    have moved : stores size start data = stores size (start % size) data := (stores_mod start).symm
    rw [moved]
    exact storing_start
  have kept := again.slice_storeAll_of_used (by omega)
  have whole : slice (storeAll cells (stores size start data)) size start
      (data.length + (size - data.length)) =
        data ++ slice cells size (start + data.length) (size - data.length) := by
    rw [slice_add, (storing.storeAll fits).slice_eq, kept]
  rwa [Nat.add_sub_cancel' fits] at whole

theorem slice_storeAll_after [DecidableEq α] {used : Nat} (fits : used + data.length ≤ size) :
    slice (storeAll cells (stores size (start + used) data)) size start size =
      slice cells size start used ++ (data ++
        slice cells size (start + used + data.length) (size - used - data.length)) := by
  have storing : Storing cells size (start + used) data (stores size (start + used) data) :=
    storing_start
  have kept := storing.slice_storeAll_of_used fits
  have whole : slice (storeAll cells (stores size (start + used) data)) size (start + used) size =
      data ++ slice cells size (start + used + data.length) (size - data.length) :=
    slice_storeAll (by omega)
  have later := congrArg (List.take (size - used)) whole
  rw [take_slice (Nat.sub_le size used), List.take_append, take_slice (by omega),
    List.take_of_length_le (by omega)] at later
  have all : slice (storeAll cells (stores size (start + used) data)) size start
      (used + (size - used)) = _ := slice_add used (size - used)
  rwa [Nat.add_sub_cancel' (by omega), kept, later] at all

end Stores

end ThreadIpc.Lib.Ring

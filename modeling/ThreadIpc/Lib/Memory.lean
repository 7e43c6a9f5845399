import Mathlib.Data.List.TakeWhile

/-!
# Loops over a stretch of memory

A memory is the list of its cells, a pointer is an index into it. What would have to look at a cell
behind the end gives `none`.
-/

namespace ThreadIpc.Lib.Memory

variable {α : Type*}

/-- Where a loop stops that goes on from cell `i` as long as the cells satisfy `p`. -/
def scan (p : α → Bool) (memory : List α) (i : Nat) : Option Nat :=
  let j := i + ((memory.drop i).takeWhile p).length
  if j < memory.length then some j else none

def write (memory : List α) (i : Nat) (c : α) : Option (List α) :=
  if i < memory.length then some (memory.set i c) else none

def slice (memory : List α) (i j : Nat) : Option (List α) :=
  if j ≤ memory.length then some ((memory.drop i).take (j - i)) else none

def find [DecidableEq α] (c : α) (memory : List α) : Nat → Nat → Option (Option Nat)
  | 0, _ => some none
  | count + 1, i =>
      match memory[i]? with
      | none => none
      | some d => if d = c then some (some i) else find c memory count (i + 1)

section Position

variable {memory front rest : List α} {stop : α} {i : Nat}

theorem length_of_drop (position : memory.drop i = front ++ stop :: rest) :
    memory.length = i + front.length + 1 + rest.length := by
  have lengths := congrArg List.length position
  rw [List.length_drop, List.length_append, List.length_cons] at lengths
  omega

theorem drop_further (position : memory.drop i = front ++ rest) :
    memory.drop (i + front.length) = rest := by
  rw [← List.drop_drop, position, List.drop_left]

theorem getElem?_of_drop (position : memory.drop i = front ++ stop :: rest) :
    memory[i + front.length]? = some stop := by
  have further := drop_further position
  rw [← List.head?_drop, further, List.head?_cons]

theorem drop_of_getElem? {c : α} (cell : memory[i]? = some c) :
    memory.drop i = c :: memory.drop (i + 1) := by
  obtain ⟨before, same⟩ := List.getElem?_eq_some_iff.mp cell
  rw [List.drop_eq_getElem_cons before, same]

theorem drop_succ {c : α} (position : memory.drop i = c :: rest) : memory.drop (i + 1) = rest :=
  drop_further (show memory.drop i = [c] ++ rest from position)

theorem drop_scanned (p : α → Bool) (memory : List α) (i : Nat) :
    memory.drop (i + ((memory.drop i).takeWhile p).length) = (memory.drop i).dropWhile p :=
  drop_further List.takeWhile_append_dropWhile.symm

theorem scan_eq (p : α → Bool) (memory : List α) (i : Nat) : scan p memory i =
    if (memory.drop i).dropWhile p = [] then none
    else some (i + ((memory.drop i).takeWhile p).length) := by
  have lengths := congrArg List.length (drop_scanned p memory i)
  rw [List.length_drop] at lengths
  rw [scan]
  by_cases ends : (memory.drop i).dropWhile p = []
  · rw [if_pos ends, if_neg (by rw [ends, List.length_nil] at lengths; omega)]
  · have left := List.length_pos_iff.mpr ends
    rw [if_neg ends, if_pos (by omega)]

theorem scan_of_drop {p : α → Bool} (position : memory.drop i = front ++ stop :: rest)
    (stops : p stop = false) : scan p memory i = some (i + (front.takeWhile p).length) := by
  have same : (memory.drop i).takeWhile p = front.takeWhile p := by
    rw [position, List.takeWhile_append]
    split
    · rename_i all
      rw [List.takeWhile_cons_of_neg (Bool.eq_false_iff.mp stops), List.append_nil]
      exact ((List.takeWhile_prefix p).eq_of_length all).symm
    · rfl
  have length := length_of_drop position
  have short : (front.takeWhile p).length ≤ front.length := (List.takeWhile_sublist p).length_le
  rw [scan, same]
  exact if_pos (by omega)

theorem write_of_drop {c : α} (position : memory.drop i = front ++ stop :: rest) :
    write memory (i + front.length) c = some (memory.set (i + front.length) c) := by
  have length := length_of_drop position
  exact if_pos (by omega)

theorem drop_set_of_drop {c : α} (position : memory.drop i = front ++ stop :: rest) :
    (memory.set (i + front.length) c).drop i = front ++ c :: rest := by
  rw [List.drop_set, if_neg (by omega), position, Nat.add_sub_cancel_left,
    List.set_append_right _ _ (Nat.le_refl _), Nat.sub_self, List.set_cons_zero]

theorem write_back {c : α} (position : memory.drop i = front ++ stop :: rest) :
    write (memory.set (i + front.length) c) (i + front.length) stop = some memory := by
  have length := length_of_drop position
  have old : memory[i + front.length]? = some stop := getElem?_of_drop position
  rw [write, List.length_set, if_pos (by omega), List.set_set]
  have inside : i + front.length < memory.length := by omega
  rw [List.getElem?_eq_getElem inside, Option.some.injEq] at old
  rw [← old, List.set_getElem_self]

theorem slice_of_drop (position : memory.drop i = front ++ rest) (inside : i ≤ memory.length) :
    slice memory i (i + front.length) = some front := by
  have lengths := congrArg List.length position
  rw [List.length_drop, List.length_append] at lengths
  rw [slice, if_pos (by omega), position, Nat.add_sub_cancel_left, List.take_left]

end Position

section Find

variable [DecidableEq α] {c : α} {memory : List α}

theorem find_bounds {count i j : Nat} (found : find c memory count i = some (some j)) :
    i ≤ j ∧ j < i + count ∧ memory[j]? = some c := by
  induction count generalizing i with
  | zero => cases found
  | succ count ih =>
      rw [find] at found
      cases cell : memory[i]? with
      | none =>
          rw [cell] at found
          cases found
      | some d =>
          rw [cell] at found
          by_cases here : d = c
          · simp only [if_pos here, Option.some.injEq] at found
            subst found here
            exact ⟨Nat.le_refl _, by omega, cell⟩
          · simp only [if_neg here] at found
            obtain ⟨above, below, value⟩ := ih found
            exact ⟨by omega, by omega, value⟩

theorem find_of_drop {front rest : List α} {i : Nat} (position : memory.drop i = front ++ rest) :
    find c memory front.length i =
      some (if c ∈ front then some (i + (front.takeWhile (· != c)).length) else none) := by
  induction front generalizing i with
  | nil => rfl
  | cons d front ih =>
      have cell : memory[i]? = some d := by
        rw [← List.head?_drop, position]
        rfl
      rw [List.length_cons, find, cell]
      by_cases here : d = c
      · subst here
        simp
      · have later := ih (drop_succ position)
        have apart : ¬ c = d := fun same => here same.symm
        have longer : (d :: front).takeWhile (· != c) = d :: front.takeWhile (· != c) := by
          rw [List.takeWhile_cons, if_pos (bne_iff_ne.mpr here)]
        simp only [if_neg here, later, List.mem_cons, apart, false_or, longer, List.length_cons]
        rw [Nat.add_assoc, Nat.add_comm 1]

end Find

end ThreadIpc.Lib.Memory

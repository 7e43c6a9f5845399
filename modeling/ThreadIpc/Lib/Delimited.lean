import Mathlib.Data.List.Basic
import Mathlib.Data.List.TakeWhile

namespace ThreadIpc.Lib

variable {α : Type*} {delimiter : α} {first first' rest rest' : List α}

theorem split_first (absent : delimiter ∉ first) (absent' : delimiter ∉ first')
    (same : first ++ delimiter :: rest = first' ++ delimiter :: rest') :
    first = first' ∧ rest = rest' := by
  induction first generalizing first' with
  | nil =>
      cases first' with
      | nil => exact ⟨rfl, (List.cons.inj same).2⟩
      | cons unit first' =>
          exact absurd ((List.cons.inj same).1 ▸ List.mem_cons_self) absent'
  | cons unit first ih =>
      cases first' with
      | nil => exact absurd ((List.cons.inj same).1 ▸ List.mem_cons_self) absent
      | cons unit' first' =>
          obtain ⟨head, tail⟩ := List.cons.inj same
          obtain ⟨firsts, rests⟩ := ih (fun member => absent (List.mem_cons_of_mem _ member))
            (fun member => absent' (List.mem_cons_of_mem _ member)) tail
          exact ⟨congrArg₂ _ head firsts, rests⟩

theorem split_last (absent : delimiter ∉ rest) (absent' : delimiter ∉ rest')
    (same : first ++ delimiter :: rest = first' ++ delimiter :: rest') :
    first = first' ∧ rest = rest' := by
  have mirrored := congrArg List.reverse same
  rw [List.reverse_append, List.reverse_append, List.reverse_cons, List.reverse_cons,
    List.append_assoc, List.append_assoc] at mirrored
  obtain ⟨rests, firsts⟩ := split_first (fun member => absent (List.mem_reverse.mp member))
    (fun member => absent' (List.mem_reverse.mp member)) mirrored
  exact ⟨List.reverse_injective firsts, List.reverse_injective rests⟩

section Scan

variable {p : α → Bool} {stop : α}

theorem takeWhile_stop (front : List α) (stops : p stop = false) (rest : List α) :
    (front ++ stop :: rest).takeWhile p = front.takeWhile p := by
  induction front with
  | nil => exact List.takeWhile_cons_of_neg (by simp [stops])
  | cons unit front ih =>
      rw [List.cons_append, List.takeWhile_cons, List.takeWhile_cons, ih]

theorem dropWhile_stop (front : List α) (stops : p stop = false) (rest : List α) :
    (front ++ stop :: rest).dropWhile p = front.dropWhile p ++ stop :: rest := by
  induction front with
  | nil => exact List.dropWhile_cons_of_neg (by simp [stops])
  | cons unit front ih =>
      rw [List.cons_append, List.dropWhile_cons, List.dropWhile_cons]
      split
      · exact ih
      · rfl

variable [DecidableEq α]

theorem takeWhile_absent (absent : delimiter ∉ first) : first.takeWhile (· != delimiter) = first := by
  apply List.takeWhile_eq_self_iff.mpr
  intro unit member
  exact bne_iff_ne.mpr (ne_of_mem_of_not_mem member absent)

theorem dropWhile_absent (absent : delimiter ∉ first) : first.dropWhile (· != delimiter) = [] := by
  apply List.dropWhile_eq_nil_iff.mpr
  intro unit member
  exact bne_iff_ne.mpr (ne_of_mem_of_not_mem member absent)

theorem takeWhile_delimiter (absent : delimiter ∉ first) (rest : List α) :
    (first ++ delimiter :: rest).takeWhile (· != delimiter) = first := by
  have stops : (delimiter != delimiter) = false := bne_self_eq_false delimiter
  rw [@takeWhile_stop α (· != delimiter) delimiter first stops, takeWhile_absent absent]

theorem dropWhile_delimiter (absent : delimiter ∉ first) (rest : List α) :
    (first ++ delimiter :: rest).dropWhile (· != delimiter) = delimiter :: rest := by
  have stops : (delimiter != delimiter) = false := bne_self_eq_false delimiter
  rw [@dropWhile_stop α (· != delimiter) delimiter first stops, dropWhile_absent absent,
    List.nil_append]

end Scan

end ThreadIpc.Lib

import Mathlib.Data.List.Basic

namespace ThreadIpc.Lib

variable {α : Type}

def padded (blank : α) (length : Nat) (cells : List α) : List α :=
  (cells ++ List.replicate (length - cells.length) blank).take length

def overwrite (blank : α) (offset : Nat) (source cells : List α) : List α :=
  padded blank offset cells ++ source ++ cells.drop (offset + source.length)

section
variable {blank : α} {cells source : List α}

theorem padded_of_le {length : Nat} (le : length ≤ cells.length) :
    padded blank length cells = cells.take length := by
  rw [padded, List.take_append_of_le_length le]

theorem padded_self : padded blank cells.length cells = cells := by
  rw [padded_of_le (Nat.le_refl _), List.take_length]

theorem prefix_padded (more : Nat) : cells <+: padded blank (cells.length + more) cells := by
  rw [padded, Nat.add_sub_cancel_left, List.take_of_length_le (by simp)]
  exact List.prefix_append _ _

theorem padded_of_isPrefix {first : List α} (first_cells : first <+: cells) :
    padded blank first.length cells = first := by
  rw [padded_of_le first_cells.length_le]
  exact (List.prefix_iff_eq_take.mp first_cells).symm

theorem overwrite_end : overwrite blank cells.length source cells = cells ++ source := by
  rw [overwrite, padded_self, List.drop_eq_nil_of_le (by omega), List.append_nil]

theorem isPrefix_overwrite {first : List α} (first_cells : first <+: cells) :
    first ++ source <+: overwrite blank first.length source cells := by
  rw [overwrite, padded_of_isPrefix first_cells]
  exact List.prefix_append _ _

theorem length_overwrite {offset : Nat} (inside : offset + source.length ≤ cells.length) :
    (overwrite blank offset source cells).length = cells.length := by
  rw [overwrite, padded_of_le (by omega)]
  simp only [List.length_append, List.length_take, List.length_drop]
  omega

theorem overwrite_append (first rest : List α) : overwrite blank first.length source (first ++ rest) =
    first ++ source ++ rest.drop source.length := by
  rw [overwrite, padded_of_isPrefix (List.prefix_append _ _), List.drop_length_add_append]

theorem take_overwrite_zero : (overwrite blank 0 source cells).take source.length = source := by
  rw [overwrite, padded_of_le (Nat.zero_le _), List.take_zero, List.nil_append, List.take_left]

end

structure SeekFile (α : Type) where
  cells : List α
  position : Nat
  deriving DecidableEq

namespace SeekFile

def empty : SeekFile α := ⟨[], 0⟩

def seek (position : Nat) (file : SeekFile α) : SeekFile α := { file with position }

def seekEnd (file : SeekFile α) : SeekFile α := { file with position := file.cells.length }

def read (count : Nat) (file : SeekFile α) : SeekFile α × List α :=
  let source := (file.cells.drop file.position).take count
  ({ file with position := file.position + source.length }, source)

def write (blank : α) (source : List α) (file : SeekFile α) : SeekFile α where
  cells := overwrite blank file.position source file.cells
  position := file.position + source.length

def truncate (blank : α) (length : Nat) (file : SeekFile α) : SeekFile α :=
  { file with cells := padded blank length file.cells }

def AtEnd (file : SeekFile α) : Prop := file.position = file.cells.length

theorem seekEnd_atEnd (file : SeekFile α) : file.seekEnd.AtEnd := rfl

theorem AtEnd.write {file : SeekFile α} (atEnd : file.AtEnd) (blank : α) (source : List α) :
    (file.write blank source).cells = file.cells ++ source ∧ (file.write blank source).AtEnd := by
  have appended : (file.write blank source).cells = file.cells ++ source := by
    rw [SeekFile.write, atEnd, overwrite_end]
  refine ⟨appended, ?_⟩
  rw [AtEnd, appended, List.length_append, ← atEnd]
  rfl

theorem AtEnd.unchanged {file : SeekFile α} (atEnd : file.AtEnd) (blank : α) :
    (file.truncate blank file.position).seekEnd = file := by
  have same : (file.truncate blank file.position).cells = file.cells := by
    rw [truncate, atEnd, padded_self]
  rw [seekEnd, same, ← atEnd]

theorem AtEnd.undo {file : SeekFile α} (atEnd : file.AtEnd) (blank : α) (source : List α) :
    ((file.write blank source).truncate blank file.position).seekEnd = file := by
  have restored : ((file.write blank source).truncate blank file.position).cells = file.cells := by
    rw [truncate, (atEnd.write blank source).1, atEnd, padded_of_isPrefix (List.prefix_append _ _)]
  rw [seekEnd, restored, ← atEnd]

end SeekFile

end ThreadIpc.Lib

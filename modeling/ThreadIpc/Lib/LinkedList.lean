import Mathlib.Data.List.Nodup
import Mathlib.Logic.Function.Basic

/-!
# Singly linked lists

`next` gives the link of each node. `Linked next link nodes` says that the nodes met from `link` on
are `nodes`, and that the last of them has no link.
-/

namespace ThreadIpc.Lib

variable {α : Type*}

def Linked (next : α → Option α) : Option α → List α → Prop
  | link, [] => link = none
  | link, node :: rest => link = some node ∧ Linked next (next node) rest

variable {next : α → Option α} {link : Option α} {node : α} {nodes : List α}

@[simp] theorem linked_nil : Linked next link [] ↔ link = none := Iff.rfl

@[simp] theorem linked_cons :
    Linked next link (node :: nodes) ↔ link = some node ∧ Linked next (next node) nodes := Iff.rfl

theorem Linked.unique {others : List α} (linked : Linked next link nodes) (again : Linked next link others) :
    nodes = others := by
  induction nodes generalizing link others with
  | nil =>
      obtain rfl := linked
      cases others with
      | nil => rfl
      | cons other rest => exact absurd again.1 (by simp)
  | cons node rest ih =>
      obtain ⟨rfl, linked⟩ := linked
      cases others with
      | nil => exact absurd again (by simp)
      | cons other others =>
          obtain ⟨same, again⟩ := again
          obtain rfl := Option.some.inj same
          rw [ih linked again]

theorem Linked.suffix {front : List α} (linked : Linked next link (front ++ node :: nodes)) :
    Linked next (next node) nodes := by
  induction front generalizing link with
  | nil => exact linked.2
  | cons first front ih => exact ih linked.2

theorem Linked.next_mem {other : α} (linked : Linked next link nodes) (mem : node ∈ nodes)
    (followed : next node = some other) : other ∈ nodes := by
  obtain ⟨front, rest, rfl⟩ := List.append_of_mem mem
  have later := linked.suffix
  cases rest with
  | nil => exact absurd (followed.symm.trans later) (by simp)
  | cons third rest =>
      obtain rfl := Option.some.inj (followed.symm.trans later.1)
      simp

theorem Linked.nodup (linked : Linked next link nodes) : nodes.Nodup := by
  induction nodes generalizing link with
  | nil => exact List.nodup_nil
  | cons node rest ih =>
      refine List.nodup_cons.mpr ⟨?_, ih linked.2⟩
      intro again
      obtain ⟨front, later, split⟩ := List.append_of_mem again
      have whole := linked.2
      have behind := whole
      rw [split] at behind
      have same := congrArg List.length (whole.unique behind.suffix)
      rw [split] at same
      simp at same
      omega

variable [DecidableEq α] {target : Option α}

theorem Linked.update (linked : Linked next link nodes) (outside : node ∉ nodes) :
    Linked (Function.update next node target) link nodes := by
  induction nodes generalizing link with
  | nil => exact linked
  | cons first rest ih =>
      rw [List.mem_cons, not_or] at outside
      refine ⟨linked.1, ?_⟩
      rw [Function.update_of_ne (Ne.symm outside.1)]
      exact ih linked.2 outside.2

end ThreadIpc.Lib

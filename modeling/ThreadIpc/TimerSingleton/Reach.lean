import ThreadIpc.TimerSingleton.Model
import Mathlib.Data.List.Nodup

namespace ThreadIpc.TimerSingleton

section
variable {heap : Heap} {timer other : Pointer} {queue : TimerQueue}

theorem lessThan_irrefl (timer : Pointer) : heap.lessThan timer timer = false := by
  simp [Heap.lessThan]

theorem eq_of_not_lessThan (before : heap.lessThan timer other = false)
    (after : heap.lessThan other timer = false) : timer = other := by
  simp only [Heap.lessThan] at before after
  cases timer
  cases other
  grind

theorem mem_erase : other ∈ TimerQueue.erase heap timer queue ↔ other ∈ queue ∧ other ≠ timer := by
  rw [TimerQueue.erase, List.mem_filter, Bool.or_eq_true]
  refine and_congr_right fun _ => ⟨?_, ?_⟩
  · rintro different rfl
    rw [lessThan_irrefl] at different
    simp at different
  · intro different
    by_contra neither
    rw [not_or, Bool.not_eq_true, Bool.not_eq_true] at neither
    exact different (eq_of_not_lessThan neither.2 neither.1)

theorem mem_insert : other ∈ TimerQueue.insert heap timer queue ↔ other = timer ∨ other ∈ queue := by
  induction queue with
  | nil => simp [TimerQueue.insert]
  | cons first rest ih =>
      rw [TimerQueue.insert]
      split
      · exact List.mem_cons
      · rename_i notBefore
        split
        · rw [List.mem_cons, ih, List.mem_cons]
          exact or_left_comm
        · rename_i notAfter
          have same : timer = first :=
            eq_of_not_lessThan (by simpa using notBefore) (by simpa using notAfter)
          subst same
          rw [List.mem_cons]
          exact or_self_left.symm

theorem insert_nodup (nodup : queue.Nodup) (absent : timer ∉ queue) :
    (TimerQueue.insert heap timer queue).Nodup := by
  induction queue with
  | nil => exact List.nodup_singleton timer
  | cons first rest ih =>
      obtain ⟨notAgain, nodupRest⟩ := List.nodup_cons.mp nodup
      rw [List.mem_cons, not_or] at absent
      obtain ⟨different, notInRest⟩ := absent
      rw [TimerQueue.insert]
      split
      · refine List.nodup_cons.mpr ⟨?_, nodup⟩
        rw [List.mem_cons, not_or]
        exact ⟨different, notInRest⟩
      · split
        · refine List.nodup_cons.mpr ⟨?_, ih nodupRest notInRest⟩
          rw [mem_insert]
          rintro (same | inRest)
          · exact different same.symm
          · exact notAgain inRest
        · exact nodup

theorem erase_nodup (nodup : queue.Nodup) : (TimerQueue.erase heap timer queue).Nodup :=
  nodup.filter _

end

section
variable {state after : State}

theorem step_construct {address : Nat} {clock delay : Int} {repeats : Bool}
    (moved : step state (.construct address clock delay repeats) = some after) :
    after = state.construct address clock delay repeats := by
  simp only [step, Option.ite_none_left_eq_some, Option.ite_none_right_eq_some] at moved
  exact (Option.some.inj moved.2.2).symm

theorem step_destroy {timer : Pointer} (moved : step state (.destroy timer) = some after) :
    after = state.destroy timer := by
  simp only [step, Option.ite_none_left_eq_some] at moved
  exact (Option.some.inj moved.2.2).symm

theorem step_callback {now clock garbage : Int}
    (moved : step state (.callback now clock garbage) = some after) :
    after = (state.copied now).advance clock garbage := by
  simp only [step, Option.ite_none_left_eq_some] at moved
  exact (Option.some.inj moved.2).symm

theorem step_returns {clock garbage : Int} (moved : step state (.returns clock garbage) = some after) :
    state.callbacks ≠ [] ∧ after = state.advance clock garbage := by
  simp only [step, Option.ite_none_left_eq_some] at moved
  exact ⟨moved.2.1, (Option.some.inj moved.2.2).symm⟩

end

def Heap.due (heap : Heap) (now : Int) (timer : Pointer) : Bool :=
  (heap timer).any (·.deadline ≤ now)

def Heap.reach (heap : Heap) (now : Int) : List Pointer → List Pointer
  | [] => []
  | timer :: rest => timer :: if heap.due now timer then heap.reach now rest else []

def Frame.reach (heap : Heap) (frame : Frame) : List Pointer := heap.reach frame.now frame.rest

section
variable {heap heap' : Heap} {now : Int} {timer : Pointer} {rest : List Pointer}

theorem reach_subset : heap.reach now rest ⊆ rest := by
  induction rest with
  | nil => exact List.Subset.refl _
  | cons first rest ih =>
      intro timer reached
      rw [Heap.reach] at reached
      rcases List.mem_cons.mp reached with rfl | later
      · exact List.mem_cons_self
      · split at later
        · exact List.mem_cons_of_mem _ (ih later)
        · contradiction

theorem reach_congr (same : ∀ timer ∈ heap.reach now rest, heap' timer = heap timer) :
    heap'.reach now rest = heap.reach now rest := by
  induction rest with
  | nil => rfl
  | cons first rest ih =>
      have sameDue : heap'.due now first = heap.due now first := by
        rw [Heap.due, Heap.due, same first List.mem_cons_self]
      rw [Heap.reach, Heap.reach, sameDue]
      split
      · rename_i due
        rw [ih]
        intro timer later
        apply same
        rw [Heap.reach, if_pos due]
        exact List.mem_cons_of_mem _ later
      · rfl

end

end ThreadIpc.TimerSingleton

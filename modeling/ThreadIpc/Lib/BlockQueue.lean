import Mathlib.Data.List.Basic

namespace ThreadIpc.Lib

/-- A first-in first-out queue kept in a block of `size` cells: the queued values, then the cells to
be filled next in the order in which they will be. One of these is never filled. -/
@[ext] structure BlockQueue (α : Type*) (size : Nat) where
  queued : List α
  rest : List α
  length : queued.length + rest.length = size
  unused : rest ≠ []

namespace BlockQueue
variable {α : Type*} {size : Nat}

inductive Command (α : Type*)
  | write (data : List α)
  | read (amount : Nat)
  | peek (amount : Nat)
  | advanceHead (amount : Nat)
  | advanceTail (amount : Nat)
  deriving DecidableEq, Repr

structure Result (α : Type*) where
  count : Nat
  data : List α
  deriving DecidableEq, Repr

def space (queue : BlockQueue α size) : Nat :=
  queue.rest.length - 1

theorem space_lt (queue : BlockQueue α size) : queue.space < queue.rest.length :=
  Nat.sub_lt (List.length_pos_of_ne_nil queue.unused) Nat.one_pos

theorem capacity (queue : BlockQueue α size) : queue.queued.length + queue.space = size - 1 := by
  have length := queue.length
  have room := queue.space_lt
  unfold space at *
  omega

def write (queue : BlockQueue α size) (data : List α) : BlockQueue α size where
  queued := queue.queued ++ data.take queue.space
  rest := queue.rest.drop (min data.length queue.space)
  length := by
    have length := queue.length
    have room := queue.space_lt
    rw [List.length_append, List.length_take, List.length_drop]
    omega
  unused := by
    have room := queue.space_lt
    rw [ne_eq, List.drop_eq_nil_iff]
    omega

def advanceTail (queue : BlockQueue α size) (amount : Nat) : BlockQueue α size :=
  queue.write (queue.rest.take amount)

theorem advanceTail_cells (queue : BlockQueue α size) (amount : Nat) :
    (queue.advanceTail amount).queued ++ (queue.advanceTail amount).rest =
      queue.queued ++ queue.rest := by
  have room := queue.space_lt
  have taken : (queue.rest.take amount).take queue.space =
      queue.rest.take (min (queue.rest.take amount).length queue.space) := by
    rw [List.take_take, List.length_take]
    congr 1
    omega
  simp only [advanceTail, write, taken, List.append_assoc, List.take_append_drop]

def advanceHead (queue : BlockQueue α size) (amount : Nat) : BlockQueue α size where
  queued := queue.queued.drop amount
  rest := queue.rest ++ queue.queued.take amount
  length := by
    have length := queue.length
    rw [List.length_append, List.length_take, List.length_drop]
    omega
  unused := by simp [queue.unused]

theorem advanceHead_min (queue : BlockQueue α size) (amount : Nat) :
    queue.advanceHead (min amount queue.queued.length) = queue.advanceHead amount := by
  have all : queue.queued.take amount = queue.queued.take (min amount queue.queued.length) :=
    List.take_eq_take_min
  have left : queue.queued.drop (min amount queue.queued.length) = queue.queued.drop amount := by
    rcases Nat.le_total amount queue.queued.length with few | many
    · rw [Nat.min_eq_left few]
    · rw [Nat.min_eq_right many, List.drop_length, List.drop_eq_nil_of_le many]
  ext1
  · exact left
  · show queue.rest ++ _ = queue.rest ++ _
    rw [all]

def perform (queue : BlockQueue α size) : Command α → Result α × BlockQueue α size
  | .write data => (⟨min data.length queue.space, []⟩, queue.write data)
  | .read amount =>
      (⟨min amount queue.queued.length, queue.queued.take amount⟩, queue.advanceHead amount)
  | .peek amount => (⟨min amount queue.queued.length, queue.queued.take amount⟩, queue)
  | .advanceHead amount => (⟨min amount queue.queued.length, []⟩, queue.advanceHead amount)
  | .advanceTail amount => (⟨min amount queue.space, []⟩, queue.advanceTail amount)

def Command.added (queue : BlockQueue α size) : Command α → List α
  | .write data => data.take queue.space
  | .advanceTail amount => (queue.rest.take amount).take queue.space
  | .read _ | .peek _ | .advanceHead _ => []

def Command.removed (queue : BlockQueue α size) : Command α → List α
  | .read amount | .advanceHead amount => queue.queued.take amount
  | .write _ | .peek _ | .advanceTail _ => []

theorem perform_order (queue : BlockQueue α size) (command : Command α) :
    command.removed queue ++ (queue.perform command).2.queued =
      queue.queued ++ command.added queue := by
  cases command with
  | write data => rfl
  | read amount => simp [Command.removed, Command.added, perform, advanceHead]
  | peek amount => simp [Command.removed, Command.added, perform]
  | advanceHead amount => simp [Command.removed, Command.added, perform, advanceHead]
  | advanceTail amount => rfl

def addedBy : BlockQueue α size → List (Command α) → List α
  | _, [] => []
  | queue, command :: later =>
      command.added queue ++ addedBy (queue.perform command).2 later

def removedBy : BlockQueue α size → List (Command α) → List α
  | _, [] => []
  | queue, command :: later =>
      command.removed queue ++ removedBy (queue.perform command).2 later

def after : BlockQueue α size → List (Command α) → BlockQueue α size
  | queue, [] => queue
  | queue, command :: later => after (queue.perform command).2 later

theorem run_order (queue : BlockQueue α size) (commands : List (Command α)) :
    queue.removedBy commands ++ (queue.after commands).queued =
      queue.queued ++ queue.addedBy commands := by
  induction commands generalizing queue with
  | nil => simp [removedBy, addedBy, after]
  | cons command later ih =>
      rw [removedBy, addedBy, after, List.append_assoc, ih, ← List.append_assoc,
        perform_order, List.append_assoc]

end BlockQueue

end ThreadIpc.Lib

import ThreadIpc.CircularBuffer.Spec
import ThreadIpc.Lib.Reachability

/-!
# The divisions of `CircularBuffer`

Of a buffer that is constructed, given blocks and called in any order.
-/

namespace ThreadIpc.CircularBuffer

inductive Answer
  | flag (value : Bool)
  | amount (value : Nat)
  deriving DecidableEq

inductive Call
  | isEmpty
  | isFull
  | dataAvailable
  | spaceAvailable
  | contiguousDataAvailable
  | contiguousSpaceAvailable
  | advanceHead (amt : Nat)
  | advanceTail (amt : Nat)
  | read (memory : Nat → UInt8) (size : Nat)
  | peek (memory : Nat → UInt8) (size : Nat)
  | write (data : List UInt8)

def Call.perform (buf : CircularBuffer) : Call → Except BufferFault (Answer × CircularBuffer)
  | .isEmpty => .ok (.flag buf.isEmpty, buf)
  | .isFull => do
      let full ← buf.isFull
      .ok (.flag full, buf)
  | .dataAvailable => .ok (.amount buf.dataAvailable, buf)
  | .spaceAvailable => .ok (.amount buf.spaceAvailable, buf)
  | .contiguousDataAvailable => .ok (.amount buf.contiguousDataAvailable, buf)
  | .contiguousSpaceAvailable => do
      let contiguous ← buf.contiguousSpaceAvailable
      .ok (.amount contiguous, buf)
  | .advanceHead amt => do
      let (count, after) ← buf.advanceHead amt
      .ok (.amount count, after)
  | .advanceTail amt => do
      let (count, after) ← buf.advanceTail amt
      .ok (.amount count, after)
  | .read memory size => do
      let (after, _) ← buf.read memory size
      .ok (.amount (min size buf.dataAvailable), after)
  | .peek memory size => do
      let (after, _) ← buf.peek memory size
      .ok (.amount (min size buf.dataAvailable), after)
  | .write data => do
      let (after, _) ← buf.write data
      .ok (.amount (min data.length buf.spaceAvailable), after)

inductive Action
  | setBuffer (buffer : Bool) (size : Nat)
  | setHead (head : Nat)
  | setTail (tail : Nat)
  | call (call : Call)

def step (buf : CircularBuffer) : Action → Option CircularBuffer
  | .setBuffer buffer size => (setBuffer buffer size).toOption
  | .setHead head => some ((buf.setHead head).getD buf)
  | .setTail tail => some ((buf.setTail tail).getD buf)
  | .call call => ((call.perform buf).map Prod.snd).toOption

def Reachable (buf : CircularBuffer) : Prop :=
  Lib.Reachable step Lib.anyAction .new buf

def Call.nothing : Call → Answer
  | .isEmpty | .isFull => .flag true
  | _ => .amount 0

def Call.DividesFirst : Call → Bool
  | .isFull | .contiguousSpaceAvailable | .advanceHead _ | .advanceTail _ => true
  | _ => false

structure Call.Safe (call : Call) (buf : CircularBuffer) : Prop where
  returns : ∃ answer after, call.perform buf = .ok (answer, after)
  nothing : buf.capacity = 0 → ∀ answer after, call.perform buf = .ok (answer, after) →
    answer = call.nothing

section
variable {buf : CircularBuffer}

theorem Valid.write_min (valid : buf.Valid) (data : List UInt8) :
    buf.write data = .ok
      ({ buf with tail := (buf.tail + min data.length buf.spaceAvailable) % buf.bufSize },
        Lib.Ring.stores buf.bufSize buf.tail (data.take (min data.length buf.spaceAvailable))) := by
  have length : (data.take (min data.length buf.spaceAvailable)).length =
      min data.length buf.spaceAvailable := by
    rw [List.length_take]
    omega
  have written := valid.write_eq (length.trans_le (Nat.min_le_right _ _))
  rw [length] at written
  rw [← written, write, write, length, List.take_take]
  congr 2
  omega

theorem Valid.empty (valid : buf.Valid) (none_ : buf.capacity = 0) :
    buf.head = 0 ∧ buf.tail = 0 ∧ buf.bufSize = 1 := by
  have capacity := valid.capacity
  have head := valid.head
  have tail := valid.tail
  omega

theorem Valid.perform (valid : buf.Valid) (call : Call) :
    ∃ answer after, call.perform buf = .ok (answer, after) ∧ after.Valid ∧
      (buf.capacity = 0 → answer = call.nothing) := by
  have available := valid.available_add
  have positive := Nat.zero_lt_of_lt valid.head
  have noData (amount : Nat) (none_ : buf.capacity = 0) :
      Answer.amount (min amount buf.dataAvailable) = .amount 0 := congrArg _ (by omega)
  have noSpace (amount : Nat) (none_ : buf.capacity = 0) :
      Answer.amount (min amount buf.spaceAvailable) = .amount 0 := congrArg _ (by omega)
  cases call with
  | isEmpty =>
      refine ⟨_, _, rfl, valid, fun none_ => ?_⟩
      obtain ⟨head, tail, _⟩ := valid.empty none_
      simp [isEmpty, head, tail, Call.nothing]
  | isFull =>
      obtain ⟨full, returned, iff⟩ := valid.isFull_iff
      refine ⟨.flag full, buf, by simp only [Call.perform, returned, bind, Except.bind], valid, ?_⟩
      intro none_
      rw [iff.mpr (by omega), Call.nothing]
  | dataAvailable => exact ⟨_, _, rfl, valid, fun none_ => congrArg _ (by omega)⟩
  | spaceAvailable => exact ⟨_, _, rfl, valid, fun none_ => congrArg _ (by omega)⟩
  | contiguousDataAvailable =>
      refine ⟨_, _, rfl, valid, fun none_ => congrArg Answer.amount ?_⟩
      obtain ⟨head, tail, _⟩ := valid.empty none_
      simp [contiguousDataAvailable, head, tail]
  | contiguousSpaceAvailable =>
      obtain ⟨contiguous, returned, _⟩ := valid.contiguousSpace
      refine ⟨.amount contiguous, buf, by simp only [Call.perform, returned, bind, Except.bind],
        valid, fun none_ => congrArg Answer.amount ?_⟩
      obtain ⟨head, tail, size⟩ := valid.empty none_
      have zero : buf.contiguousSpaceAvailable = .ok 0 := by
        simp [contiguousSpaceAvailable, isFull, modulo, head, tail, size, bind, Except.bind]
      exact Except.ok.inj (returned.symm.trans zero)
  | advanceHead amt =>
      obtain ⟨after, _⟩ := valid.after_read (Nat.min_le_right amt buf.dataAvailable)
      refine ⟨_, _, ?_, after, noData amt⟩
      simp only [Call.perform, advanceHead, modulo_of_pos _ positive, bind, Except.bind]
  | advanceTail amt =>
      obtain ⟨after, _⟩ := valid.after_write (Nat.min_le_right amt buf.spaceAvailable)
      refine ⟨_, _, ?_, after, noSpace amt⟩
      simp only [Call.perform, advanceTail, modulo_of_pos _ positive, bind, Except.bind]
  | read memory size =>
      obtain ⟨after, _⟩ := valid.after_read (Nat.min_le_right size buf.dataAvailable)
      refine ⟨_, _, ?_, after, noData size⟩
      simp only [Call.perform, valid.read_min, bind, Except.bind]
  | peek memory size =>
      refine ⟨_, buf, ?_, valid, noData size⟩
      simp only [Call.perform, peek, valid.read_min, bind, Except.bind]
  | write data =>
      obtain ⟨after, _⟩ := valid.after_write (Nat.min_le_right data.length buf.spaceAvailable)
      refine ⟨_, _, ?_, after, noSpace data.length⟩
      simp only [Call.perform, valid.write_min, bind, Except.bind]

theorem perform_new (call : Call) :
    call.perform .new = if call.DividesFirst then .error .divideByZero
      else .ok (call.nothing, .new) := by
  cases call with
  | read memory size => simp [Call.perform, read, readLoop, dataAvailable, new, Call.nothing,
      Call.DividesFirst, bind, Except.bind]
  | peek memory size => simp [Call.perform, peek, read, readLoop, dataAvailable, new, Call.nothing,
      Call.DividesFirst, bind, Except.bind]
  | write data => simp [Call.perform, write, writeLoop, spaceAvailable, dataAvailable, new,
      Call.nothing, Call.DividesFirst, bind, Except.bind]
  | _ => rfl

theorem setBuffer_cases {buffer : Bool} {size : Nat} (set : setBuffer buffer size = .ok buf) :
    buf = .new ∨ buf.Valid := by
  cases buffer with
  | false =>
      have empty : size = 0 := by
        by_contra some_
        simp [setBuffer, some_] at set
      simp only [empty, setBuffer, Bool.false_and, Bool.not_false, beq_self_eq_true, Bool.and_self,
        Bool.or_true, if_true, Except.ok.injEq] at set
      exact Or.inl set.symm
  | true =>
      cases size with
      | zero => simp [setBuffer] at set
      | succ capacity =>
          obtain ⟨opened, valid⟩ := valid_setBuffer capacity
          rw [opened] at set
          exact Or.inr (Except.ok.inj set ▸ valid)

theorem Valid.setHead_getD (valid : buf.Valid) (head : Nat) :
    ((buf.setHead head).getD buf).Valid := by
  by_cases inside : head < buf.bufSize
  · rw [valid.setHead inside]
    exact ⟨valid.buffer, valid.capacity, inside, valid.tail⟩
  · simpa [CircularBuffer.setHead, Nat.not_lt.mp inside] using valid

theorem Valid.setTail_getD (valid : buf.Valid) (tail : Nat) :
    ((buf.setTail tail).getD buf).Valid := by
  by_cases inside : tail < buf.bufSize
  · rw [valid.setTail inside]
    exact ⟨valid.buffer, valid.capacity, valid.head, inside⟩
  · simpa [CircularBuffer.setTail, Nat.not_lt.mp inside] using valid

theorem Reachable.cases (reachable : Reachable buf) : buf = .new ∨ buf.Valid := by
  apply Lib.Reachable.invariant _ _ reachable
  · exact Or.inl rfl
  · intro before action after either _ stepped
    cases action with
    | setBuffer buffer size =>
        rw [step] at stepped
        cases set : setBuffer buffer size with
        | error fault => simp [set, Except.toOption] at stepped
        | ok opened =>
            simp only [set, Except.toOption, Option.some.injEq] at stepped
            exact stepped ▸ setBuffer_cases set
    | setHead head =>
        have moved := Option.some.inj stepped
        exact moved ▸ either.imp (fun fresh => by rw [fresh]; rfl) (·.setHead_getD head)
    | setTail tail =>
        have moved := Option.some.inj stepped
        exact moved ▸ either.imp (fun fresh => by rw [fresh]; rfl) (·.setTail_getD tail)
    | call call =>
        rw [step] at stepped
        rcases either with rfl | valid
        · cases divides : call.DividesFirst with
          | false =>
              simp only [perform_new, divides] at stepped
              exact Or.inl (Option.some.inj stepped).symm
          | true => simp [perform_new, divides, Except.map, Except.toOption] at stepped
        · obtain ⟨answer, next, returned, valid', _⟩ := valid.perform call
          simp only [returned, Except.map, Except.toOption, Option.some.injEq] at stepped
          exact Or.inr (stepped ▸ valid')

/-- In any state that is reached, a call is safe unless it divides first and there is no block. -/
theorem call_safe_iff (reachable : Reachable buf) (call : Call) :
    call.Safe buf ↔ buf.bufSize ≠ 0 ∨ call.DividesFirst = false := by
  rcases reachable.cases with rfl | valid
  · cases divides : call.DividesFirst with
    | false =>
        have returned := perform_new call
        simp only [divides, Bool.false_eq_true, if_false] at returned
        refine iff_of_true ⟨⟨_, _, returned⟩, fun _ answer after same => ?_⟩ (Or.inr rfl)
        exact congrArg Prod.fst (Except.ok.inj (same.symm.trans returned))
    | true =>
        apply iff_of_false _ (by simp [new])
        intro ⟨⟨answer, after, returned⟩, _⟩
        simp [perform_new, divides] at returned
  · have positive := Nat.zero_lt_of_lt valid.head
    obtain ⟨answer, after, returned, _, nothing⟩ := valid.perform call
    refine iff_of_true ⟨⟨_, _, returned⟩, fun none_ answer' after' same => ?_⟩ (Or.inl positive.ne')
    have answered : answer = answer' :=
      congrArg Prod.fst (Except.ok.inj (returned.symm.trans same))
    exact answered ▸ nothing none_

def filledBlock : CircularBuffer :=
  Lib.final step Lib.anyAction .new
    [.setBuffer true 4, .call (.write [1, 2, 3]), .setHead 2, .call .isFull] (by decide +kernel)

theorem filledBlock_safe :
    Call.contiguousSpaceAvailable.Safe filledBlock ↔
      filledBlock.bufSize ≠ 0 ∨ Call.contiguousSpaceAvailable.DividesFirst = false :=
  call_safe_iff (Lib.reachable_final _ _) .contiguousSpaceAvailable

theorem new_isFull_divides_by_zero :
    ∃ buf, Reachable buf ∧ Call.isFull.perform buf = .error .divideByZero ∧
      ¬ Call.isFull.Safe buf := by
  refine ⟨.new, .start, rfl, fun safe => ?_⟩
  obtain ⟨answer, after, returned⟩ := safe.returns
  contradiction

end

end ThreadIpc.CircularBuffer

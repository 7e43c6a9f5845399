import Mathlib.Data.Option.Basic

/-!
# A mutex with recursion and abandonment

The owner may take it again and has to release it as often. A mutex whose owner ends is free, and
the thread that takes it next is told that it was abandoned.
-/

namespace ThreadIpc.Lib

structure RecursiveMutex (T : Type) where
  owner : Option (T × Nat)
  abandoned : Bool
  deriving DecidableEq, Repr

namespace RecursiveMutex
variable {T : Type}

def free : RecursiveMutex T := ⟨none, false⟩

def thread (mutex : RecursiveMutex T) : Option T :=
  mutex.owner.map Prod.fst

def abandon (mutex : RecursiveMutex T) (ended : T → Bool) : RecursiveMutex T :=
  match mutex.owner with
  | none => mutex
  | some (owner, _) => if ended owner then ⟨none, true⟩ else mutex

variable {mutex : RecursiveMutex T} {thread other : T}

theorem abandon_owner {ended : T → Bool} {count : Nat} (owned : mutex.owner = some (thread, count))
    (ends : ended thread = true) : (mutex.abandon ended).owner = none := by
  simp [abandon, owned, ends]

theorem abandon_kept {ended : T → Bool} (alive : ∀ owner, mutex.thread = some owner → ended owner = false) :
    mutex.abandon ended = mutex := by
  unfold abandon
  cases owned : mutex.owner with
  | none => rfl
  | some pair =>
      have lives : ended pair.1 = false := alive pair.1 (by simp [thread, owned])
      simp [lives]

variable [DecidableEq T]

/-- `none` while another thread owns the mutex. -/
def acquire (mutex : RecursiveMutex T) (thread : T) : Option (RecursiveMutex T) :=
  match mutex.owner with
  | none => some ⟨some (thread, 1), false⟩
  | some (owner, count) => if owner = thread then some ⟨some (owner, count + 1), false⟩ else none

/-- `none` where the thread does not own the mutex. -/
def release (mutex : RecursiveMutex T) (thread : T) : Option (RecursiveMutex T) :=
  match mutex.owner with
  | none => none
  | some (owner, count) =>
      if owner ≠ thread then none
      else if count ≤ 1 then some ⟨none, false⟩
      else some ⟨some (owner, count - 1), false⟩

theorem acquire_free (unowned : mutex.owner = none) :
    mutex.acquire thread = some ⟨some (thread, 1), false⟩ := by
  rw [acquire, unowned]

theorem acquire_owned {count : Nat} (owned : mutex.owner = some (other, count)) (different : other ≠ thread) :
    mutex.acquire thread = none := by
  simp [acquire, owned, different]

theorem release_once (owned : mutex.owner = some (thread, 1)) :
    mutex.release thread = some ⟨none, false⟩ := by
  simp [release, owned]

theorem release_other (different : mutex.thread ≠ some thread) : mutex.release thread = none := by
  unfold release
  cases owned : mutex.owner with
  | none => rfl
  | some pair =>
      have other : pair.1 ≠ thread := by
        simpa [RecursiveMutex.thread, owned] using different
      simp [other]

end RecursiveMutex

end ThreadIpc.Lib

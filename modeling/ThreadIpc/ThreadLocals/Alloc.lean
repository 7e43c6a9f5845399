import ThreadIpc.ThreadLocals.Model

/-!
# `ThreadLocals::Alloc`

Any number of threads in `Alloc`. `AtomicIncrement` is one step and the second read of `next_slot_`
another one, so other threads' increments may come between them. `next_slot_` is a 32-bit integer
that wraps. A call is numbered by the order of the increments; a failed call returns -1, here
`none`, where assertions are off.
-/

namespace ThreadIpc.ThreadLocals.Alloc

structure Pending where
  slot : Int32
  number : Nat
  deriving DecidableEq, Repr

structure Returned where
  slot : Option Int32
  number : Nat
  deriving DecidableEq, Repr

structure State (T : Type) where
  nextSlot : Int32
  calls : Nat
  pending : T → Option Pending
  returned : List Returned

inductive Action (T : Type)
  | atomicIncrement (thread : T)
  | reread (thread : T)
  deriving DecidableEq, Repr

variable {T : Type}

def State.init : State T where
  nextSlot := 0
  calls := 0
  pending := fun _ => none
  returned := []

def kMaxSlots32 : Int32 := 64

def alloc (nextSlot : Int32) (call : Pending) : Returned :=
  if nextSlot ≥ kMaxSlots32 then ⟨none, call.number⟩ else ⟨some call.slot, call.number⟩

variable [DecidableEq T]

def State.increment (state : State T) (thread : T) : State T :=
  { state with
    nextSlot := state.nextSlot + 1
    calls := state.calls + 1
    pending := Function.update state.pending thread (some ⟨state.nextSlot + 1 - 1, state.calls⟩) }

def State.finish (state : State T) (thread : T) (call : Pending) : State T :=
  { state with
    pending := Function.update state.pending thread none
    returned := state.returned ++ [alloc state.nextSlot call] }

def step (state : State T) : Action T → Option (State T)
  | .atomicIncrement thread => match state.pending thread with
      | none => some (state.increment thread)
      | some _ => none
  | .reread thread => match state.pending thread with
      | some call => some (state.finish thread call)
      | none => none

abbrev Reached (state : State T) : Prop :=
  Lib.Reachable step Lib.anyAction .init state

structure AllocatesFirst (state : State T) : Prop where
  inRange : ∀ call ∈ state.returned, ∀ slot, call.slot = some slot →
    0 ≤ slot.toInt ∧ slot.toInt < kMaxSlots
  distinct : state.returned.Pairwise fun one other => ∀ slot, one.slot = some slot →
    other.slot ≠ some slot
  first : ∀ call ∈ state.returned, call.slot.isSome = true ↔ call.number < kMaxSlots

/-- A call among the first `kMaxSlots` reads a counter below `kMaxSlots`, a later one does not. -/
def rereadsInTime (state : State T) : Action T → Prop
  | .atomicIncrement _ => True
  | .reread thread => match state.pending thread with
      | some call => state.nextSlot < kMaxSlots32 ↔ call.number < kMaxSlots
      | none => True

instance (state : State T) : (action : Action T) → Decidable (rereadsInTime state action)
  | .atomicIncrement _ => inferInstanceAs (Decidable True)
  | .reread thread => match here : state.pending thread with
      | some call => decidable_of_iff (state.nextSlot < kMaxSlots32 ↔ call.number < kMaxSlots)
          (by rw [rereadsInTime, here])
      | none => isTrue (by rw [rereadsInTime, here]; trivial)

structure Numbered (state : State T) : Prop where
  counter : state.nextSlot = Int32.ofNat state.calls
  pending : ∀ thread call, state.pending thread = some call →
    call.number < state.calls ∧ call.slot = Int32.ofNat call.number
  returned : ∀ call ∈ state.returned, call.number < state.calls ∧
    ∀ slot, call.slot = some slot → slot = Int32.ofNat call.number
  apart : ∀ thread other one call, state.pending thread = some one →
    state.pending other = some call → one.number = call.number → thread = other
  away : ∀ thread one, state.pending thread = some one →
    ∀ call ∈ state.returned, call.number ≠ one.number
  once : state.returned.Pairwise fun one other => one.number ≠ other.number

omit [DecidableEq T] in
theorem numbered_init : Numbered (State.init : State T) where
  counter := rfl
  pending := by simp [State.init]
  returned := by simp [State.init]
  apart := by simp [State.init]
  away := by simp [State.init]
  once := .nil

theorem alloc_number (nextSlot : Int32) (call : Pending) :
    (alloc nextSlot call).number = call.number := by
  unfold alloc
  split <;> rfl

theorem alloc_slot {nextSlot slot : Int32} {call : Pending}
    (succeeded : (alloc nextSlot call).slot = some slot) : slot = call.slot := by
  unfold alloc at succeeded
  split at succeeded
  · contradiction
  · exact (Option.some.inj succeeded).symm

theorem alloc_isSome (nextSlot : Int32) (call : Pending) :
    (alloc nextSlot call).slot.isSome = true ↔ nextSlot < kMaxSlots32 := by
  unfold alloc
  split
  · rename_i full
    simpa using Int32.not_lt.mpr full
  · rename_i free
    simpa using Int32.not_le.mp free

theorem Numbered.increment {state : State T} (numbered : Numbered state) (thread : T) :
    Numbered (state.increment thread) := by
  have cases {other : T} {call : Pending} (pending : (state.increment thread).pending other = some call) :
      (other = thread ∧ call.number = state.calls ∧ call.slot = Int32.ofNat state.calls) ∨
        (other ≠ thread ∧ state.pending other = some call) := by
    change Function.update state.pending thread _ other = some call at pending
    by_cases here : other = thread
    · rw [here, Function.update_self, Option.some.injEq] at pending
      rw [← pending]
      refine .inl ⟨here, rfl, ?_⟩
      show state.nextSlot + 1 - 1 = _
      rw [Int32.add_sub_cancel, numbered.counter]
    · rw [Function.update_of_ne here] at pending
      exact .inr ⟨here, pending⟩
  refine ⟨?_, ?_, ?_, ?_, ?_, numbered.once⟩
  · show state.nextSlot + 1 = Int32.ofNat (state.calls + 1)
    rw [Int32.ofNat_add, numbered.counter]
    rfl
  · intro other call pending
    rcases cases pending with ⟨-, number, slot⟩ | ⟨-, pending⟩
    · exact ⟨number ▸ Nat.lt_succ_self _, number ▸ slot⟩
    · obtain ⟨number, slot⟩ := numbered.pending other call pending
      exact ⟨Nat.lt_succ_of_lt number, slot⟩
  · intro call member
    obtain ⟨number, slot⟩ := numbered.returned call member
    exact ⟨Nat.lt_succ_of_lt number, slot⟩
  · intro one other first second onePending otherPending same
    rcases cases onePending with ⟨oneHere, oneNumber, -⟩ | ⟨-, onePending⟩ <;>
      rcases cases otherPending with ⟨otherHere, otherNumber, -⟩ | ⟨-, otherPending⟩
    · exact oneHere.trans otherHere.symm
    · exact absurd (numbered.pending other second otherPending).1 (by omega)
    · exact absurd (numbered.pending one first onePending).1 (by omega)
    · exact numbered.apart one other first second onePending otherPending same
  · intro other call pending earlier member
    rcases cases pending with ⟨-, number, -⟩ | ⟨-, pending⟩
    · exact Nat.ne_of_lt (number ▸ (numbered.returned earlier member).1)
    · exact numbered.away other call pending earlier member

theorem Numbered.finish {state : State T} (numbered : Numbered state) {thread : T} {call : Pending}
    (here : state.pending thread = some call) : Numbered (state.finish thread call) := by
  have still {other : T} {one : Pending} (pending : (state.finish thread call).pending other = some one) :
      other ≠ thread ∧ state.pending other = some one := by
    change Function.update state.pending thread none other = some one at pending
    by_cases same : other = thread
    · rw [same, Function.update_self] at pending
      contradiction
    · rw [Function.update_of_ne same] at pending
      exact ⟨same, pending⟩
  obtain ⟨bound, slot⟩ := numbered.pending thread call here
  refine ⟨numbered.counter, ?_, ?_, ?_, ?_, ?_⟩
  · intro other one pending
    exact numbered.pending other one (still pending).2
  · intro one member
    rcases List.mem_append.mp member with earlier | now
    · exact numbered.returned one earlier
    · rw [List.mem_singleton.mp now, alloc_number]
      exact ⟨bound, fun _ succeeded => (alloc_slot succeeded).trans slot⟩
  · intro one other first second onePending otherPending
    exact numbered.apart one other first second (still onePending).2 (still otherPending).2
  · intro other one pending earlier member
    obtain ⟨elsewhere, pending⟩ := still pending
    rcases List.mem_append.mp member with before | now
    · exact numbered.away other one pending earlier before
    · rw [List.mem_singleton.mp now, alloc_number]
      exact fun same => elsewhere (numbered.apart other thread one call pending here same.symm)
  · refine List.pairwise_append.mpr ⟨numbered.once, List.pairwise_singleton _ _, ?_⟩
    intro earlier member now isNow
    rw [List.mem_singleton.mp isNow, alloc_number]
    exact numbered.away thread call here earlier member

theorem numbered_step {state after : State T} {action : Action T} (numbered : Numbered state)
    (moved : step state action = some after) : Numbered after := by
  cases action with
  | atomicIncrement thread =>
      simp only [step] at moved
      split at moved
      · exact Option.some.inj moved ▸ numbered.increment thread
      · contradiction
  | reread thread =>
      simp only [step] at moved
      split at moved
      · rename_i call here
        exact Option.some.inj moved ▸ numbered.finish here
      · contradiction

theorem ofNat_toInt {number : Nat} (bound : number < kMaxSlots) :
    (Int32.ofNat number).toInt = number :=
  Int32.toInt_ofNat_of_lt (Nat.lt_trans bound (by decide))

theorem ofNat_inj {one other : Nat} (oneBound : one < kMaxSlots) (otherBound : other < kMaxSlots)
    (same : Int32.ofNat one = Int32.ofNat other) : one = other := by
  have ints := congrArg Int32.toInt same
  rw [ofNat_toInt oneBound, ofNat_toInt otherBound] at ints
  exact Int.ofNat_inj.mp ints

theorem allocatesFirst_finish {state : State T} (numbered : Numbered state)
    (allocates : AllocatesFirst state) {thread : T} {call : Pending}
    (here : state.pending thread = some call) :
    AllocatesFirst (state.finish thread call) ↔
      (state.nextSlot < kMaxSlots32 ↔ call.number < kMaxSlots) := by
  constructor
  · intro after
    have now := after.first (alloc state.nextSlot call)
      (List.mem_append_right _ (List.mem_singleton.mpr rfl))
    rwa [alloc_isSome, alloc_number] at now
  · intro inTime
    have slotOf {slot : Int32} (succeeded : (alloc state.nextSlot call).slot = some slot) :
        slot = Int32.ofNat call.number ∧ call.number < kMaxSlots := by
      refine ⟨(alloc_slot succeeded).trans (numbered.pending thread call here).2, ?_⟩
      exact inTime.mp ((alloc_isSome _ _).mp (by rw [succeeded]; rfl))
    refine ⟨?_, ?_, ?_⟩
    · intro one member slot succeeded
      rcases List.mem_append.mp member with earlier | now
      · exact allocates.inRange one earlier slot succeeded
      · rw [List.mem_singleton.mp now] at succeeded
        obtain ⟨rfl, bound⟩ := slotOf succeeded
        rw [ofNat_toInt bound]
        omega
    · refine List.pairwise_append.mpr ⟨allocates.distinct, List.pairwise_singleton _ _, ?_⟩
      intro earlier member now isNow slot succeeded again
      rw [List.mem_singleton.mp isNow] at again
      obtain ⟨now, bound⟩ := slotOf again
      have earlierBound := (allocates.first earlier member).mp (by rw [succeeded]; rfl)
      have before := (numbered.returned earlier member).2 slot succeeded
      exact numbered.away thread call here earlier member
        (ofNat_inj earlierBound bound (before.symm.trans now))
    · intro one member
      rcases List.mem_append.mp member with earlier | now
      · exact allocates.first one earlier
      · rw [List.mem_singleton.mp now, alloc_isSome, alloc_number]
        exact inTime

theorem rereadsInTime_iff {state after : State T} {action : Action T} (numbered : Numbered state)
    (allocates : AllocatesFirst state) (moved : step state action = some after) :
    AllocatesFirst after ↔ rereadsInTime state action := by
  cases action with
  | atomicIncrement thread =>
      simp only [step] at moved
      split at moved
      · rw [← Option.some.inj moved]
        have after : AllocatesFirst (state.increment thread) :=
          ⟨allocates.inRange, allocates.distinct, allocates.first⟩
        exact ⟨fun _ => trivial, fun _ => after⟩
      · contradiction
  | reread thread =>
      simp only [step] at moved
      split at moved
      · rename_i call here
        rw [← Option.some.inj moved, allocatesFirst_finish numbered allocates here, rereadsInTime, here]
      · contradiction

theorem reached_numbered {state : State T} (reach : Reached state) : Numbered state :=
  reach.invariant numbered_init fun _ _ _ numbered _ moved => numbered_step numbered moved

omit [DecidableEq T] in
theorem allocatesFirst_init : AllocatesFirst (State.init : State T) := by
  refine ⟨?_, .nil, ?_⟩
  · intro _ member
    cases member
  · intro _ member
    cases member

theorem alloc_first_slots {state : State T}
    (reach : Lib.Reachable step rereadsInTime .init state) :
    AllocatesFirst state ∧ ∀ action after, step state action = some after →
      (AllocatesFirst after ↔ rereadsInTime state action) := by
  have numbered := reached_numbered (reach.weaken fun _ _ _ => trivial)
  have allocates : AllocatesFirst state :=
    reach.invariant_beside
      (fun _ reach => reached_numbered (reach.weaken fun _ _ _ => trivial)) allocatesFirst_init
      fun _ _ _ numbered allocates inTime moved =>
        (rereadsInTime_iff numbered allocates moved).mpr inTime
  exact ⟨allocates, fun _ _ moved => rereadsInTime_iff numbered allocates moved⟩

theorem calls_le {state after : State T} {action : Action T} (moved : step state action = some after) :
    state.calls ≤ after.calls := by
  cases action with
  | atomicIncrement thread =>
      simp only [step] at moved
      split at moved
      · rw [← Option.some.inj moved]
        exact Nat.le_succ _
      · contradiction
  | reread thread =>
      simp only [step] at moved
      split at moved
      · rw [← Option.some.inj moved]
        exact Nat.le_refl _
      · contradiction

omit [DecidableEq T] in
theorem rereadsInTime_few {state : State T} (numbered : Numbered state) (few : state.calls < kMaxSlots)
    (action : Action T) : rereadsInTime state action := by
  cases action with
  | atomicIncrement thread => trivial
  | reread thread =>
      simp only [rereadsInTime]
      cases pending : state.pending thread with
      | none => trivial
      | some call =>
          have below : state.nextSlot < kMaxSlots32 := by
            rw [Int32.lt_iff_toInt_lt, numbered.counter, ofNat_toInt few]
            exact Int.ofNat_lt.mpr few
          exact ⟨fun _ => Nat.lt_trans (numbered.pending thread call pending).1 few, fun _ => below⟩

/-- The last slot is never given out, and up to the call that would get it the order of the steps
does not matter. -/
theorem allocatesFirst_few {state : State T} (reach : Reached state) (few : state.calls < kMaxSlots) :
    AllocatesFirst state := by
  induction reach with
  | start => exact allocatesFirst_init
  | next reach _ moved ih =>
      have before := Nat.lt_of_le_of_lt (calls_le moved) few
      have numbered := reached_numbered reach
      exact (rereadsInTime_iff numbered (ih before) moved).mpr (rereadsInTime_few numbered before _)

/-- Two calls whose increments both come before their second reads. -/
def overlappingRun : List (Action Bool) :=
  [.atomicIncrement true, .atomicIncrement false, .reread false, .reread true]

def overlapped : State Bool :=
  Lib.final step rereadsInTime .init overlappingRun (by decide)

theorem overlapped_allocates : overlapped.returned = [⟨some 1, 1⟩, ⟨some 0, 0⟩] ∧
    AllocatesFirst overlapped := by
  have reach : Lib.Reachable step rereadsInTime .init overlapped :=
    Lib.reachable_final overlappingRun (by decide)
  exact ⟨by decide, (alloc_first_slots reach).1⟩

def kMaxSlotsCalls : List (Action Unit) :=
  (List.replicate kMaxSlots [Action.atomicIncrement (), Action.reread ()]).flatten

theorem kMaxSlotsCalls_enabled :
    (Lib.run step Lib.anyAction State.init kMaxSlotsCalls).isSome = true := by
  decide +kernel

def exhausted : State Unit :=
  Lib.final step Lib.anyAction .init kMaxSlotsCalls kMaxSlotsCalls_enabled

theorem last_slot_refused :
    Reached exhausted ∧ ⟨none, kMaxSlots - 1⟩ ∈ exhausted.returned ∧ ¬ AllocatesFirst exhausted := by
  have refused : (⟨none, kMaxSlots - 1⟩ : Returned) ∈ exhausted.returned := by
    decide +kernel
  refine ⟨Lib.reachable_final kMaxSlotsCalls kMaxSlotsCalls_enabled, refused, fun allocates => ?_⟩
  have first := (allocates.first _ refused).mpr (by decide)
  contradiction

end ThreadIpc.ThreadLocals.Alloc

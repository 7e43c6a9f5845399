import ThreadIpc.ThreadStart.Model

/-!
# What `Start` returns

The children's side says that a child owns its id from its creation to its end and that its queue
is registered from `InitThreadMessageQueue` to its end hook. The parent's side says that at most
the youngest child has not signalled, and that `started_event_` is set only while the parent waits
for a child that has.
-/

namespace ThreadIpc.ThreadStart
open ThreadQueue (Event)

section Phases
variable {phase : ChildPhase}

theorem next_hasQueue (queue : phase.next.hasQueue = true) :
    phase.hasQueue = true ∨ phase = .initThreadMessageQueue := by
  cases phase <;> first | exact .inl rfl | exact .inr rfl | contradiction

theorem next_hasSignalled (signalled : phase.hasSignalled = true) : phase.next.hasSignalled = true := by
  cases phase <;> first | rfl | contradiction

theorem next_hasSetThreadId (set : phase.next.hasSetThreadId = true) :
    phase.hasSetThreadId = true ∨ phase = .setThreadId := by
  cases phase <;> first | exact .inl rfl | exact .inr rfl | contradiction

theorem hasSignalled_hasSetThreadId (signalled : phase.hasSignalled = true) :
    phase.hasSetThreadId = true := by
  cases phase <;> first | rfl | contradiction

theorem hasQueue_hookPending (queue : phase.hasQueue = true) : phase.hookPending = true := by
  cases phase <;> first | rfl | contradiction

theorem hasQueue_alive (queue : phase.hasQueue = true) : phase ≠ .terminated := by
  rintro rfl
  contradiction

theorem next_alive (alive : phase.next ≠ .terminated) : phase ≠ .terminated := by
  rintro rfl
  exact alive rfl

end Phases

variable {T : Type} [DecidableEq T]

section Frames
variable (state : State T) (main : T) (number : Nat)

@[simp] theorem initThreadMessageQueue_phase (other : Nat) :
    ((state.initThreadMessageQueue main number).child other).phase = (state.child other).phase := by
  unfold State.initThreadMessageQueue
  simp only
  split
  · rfl
  · by_cases here : other = number <;> simp [here]

@[simp] theorem initThreadMessageQueue_id (other : Nat) :
    ((state.initThreadMessageQueue main number).child other).id = (state.child other).id := by
  unfold State.initThreadMessageQueue
  simp only
  split
  · rfl
  · by_cases here : other = number <;> simp [here]

theorem initThreadMessageQueue_registers :
    (state.initThreadMessageQueue main number).messageQueues (state.child number).id = true := by
  unfold State.initThreadMessageQueue
  simp only
  split
  · assumption
  · simp

theorem initThreadMessageQueue_keeps {id : T} (registered : state.messageQueues id = true) :
    (state.initThreadMessageQueue main number).messageQueues id = true := by
  unfold State.initThreadMessageQueue
  simp only
  split
  · exact registered
  · by_cases here : id = (state.child number).id <;> simp [here, registered]

theorem threadEndHook_keeps {id : T} (registered : state.messageQueues id = true)
    (elsewhere : id ≠ (state.child number).id) :
    (state.threadEndHook number).messageQueues id = true := by
  unfold State.threadEndHook
  split
  · simp [elsewhere, registered]
  · exact registered

structure SameMembers (before after : State T) : Prop where
  threadId : after.threadId = before.threadId
  isRunning : after.isRunning = before.isRunning
  startedEvent : after.startedEvent = before.startedEvent
  usedAfterDestruction : after.usedAfterDestruction = before.usedAfterDestruction

theorem initThreadMessageQueue_sameMembers :
    SameMembers state (state.initThreadMessageQueue main number) := by
  unfold State.initThreadMessageQueue
  simp only
  split <;> exact ⟨rfl, rfl, rfl, rfl⟩

theorem threadEndHook_sameMembers : SameMembers state (state.threadEndHook number) := by
  unfold State.threadEndHook
  split <;> exact ⟨rfl, rfl, rfl, rfl⟩

theorem threadMain_id (phase : ChildPhase) (other : Nat) :
    ((state.threadMain main number phase).child other).id = (state.child other).id := by
  cases phase <;> simp [State.threadMain, State.touch]
  unfold State.threadEndHook
  split <;> rfl

theorem threadMain_phase (phase : ChildPhase) (other : Nat) :
    ((state.threadMain main number phase).child other).phase = (state.child other).phase := by
  cases phase <;> simp [State.threadMain, State.touch]
  unfold State.threadEndHook
  split <;> rfl

end Frames

theorem childStep_id (state : State T) (main : T) (number other : Nat) :
    ((state.childStep main number).child other).id = (state.child other).id := by
  unfold State.childStep State.setPhase
  by_cases here : other = number
  · simp [here, threadMain_id]
  · simp [here, threadMain_id]

theorem childStep_phase_self (state : State T) (main : T) (number : Nat) :
    ((state.childStep main number).child number).phase = (state.child number).phase.next := by
  simp [State.childStep, State.setPhase]

theorem childStep_phase_other (state : State T) (main : T) {number other : Nat}
    (elsewhere : other ≠ number) :
    ((state.childStep main number).child other).phase = (state.child other).phase := by
  simp [State.childStep, State.setPhase, elsewhere, threadMain_phase]

structure SameParent (before after : State T) : Prop where
  created : after.created = before.created
  parent : after.parent = before.parent
  handle : after.handle = before.handle
  returned : after.returned = before.returned
  needsJoin : after.needsJoin = before.needsJoin
  assertFailed : after.assertFailed = before.assertFailed

theorem threadMain_sameParent (state : State T) (main : T) (number : Nat) (phase : ChildPhase) :
    SameParent state (state.threadMain main number phase) := by
  cases phase with
  | initThreadMessageQueue =>
      simp only [State.threadMain, State.initThreadMessageQueue]
      split <;> exact ⟨rfl, rfl, rfl, rfl, rfl, rfl⟩
  | threadEndHook =>
      simp only [State.threadMain, State.threadEndHook]
      split <;> exact ⟨rfl, rfl, rfl, rfl, rfl, rfl⟩
  | _ => exact ⟨rfl, rfl, rfl, rfl, rfl, rfl⟩

theorem childStep_sameParent (state : State T) (main : T) (number : Nat) :
    SameParent state (state.childStep main number) := by
  obtain ⟨created, parent, handle, returned, needsJoin, assertFailed⟩ :=
    threadMain_sameParent state main number (state.child number).phase
  exact ⟨created, parent, handle, returned, needsJoin, assertFailed⟩

theorem childStep_created (state : State T) (main : T) (number : Nat) :
    (state.childStep main number).created = state.created :=
  (childStep_sameParent state main number).created

theorem childStep_parent (state : State T) (main : T) (number : Nat) :
    (state.childStep main number).parent = state.parent :=
  (childStep_sameParent state main number).parent

theorem childStep_keeps {state : State T} {main : T} {number : Nat} {id : T}
    (registered : state.messageQueues id = true)
    (elsewhere : (state.child number).phase = .threadEndHook → id ≠ (state.child number).id) :
    (state.childStep main number).messageQueues id = true := by
  show (state.threadMain main number (state.child number).phase).messageQueues id = true
  cases here : (state.child number).phase with
  | initThreadMessageQueue => exact initThreadMessageQueue_keeps state main number registered
  | threadEndHook => exact threadEndHook_keeps state number registered (elsewhere here)
  | setThreadId => exact registered
  | setRunning => exact registered
  | signal => exact registered
  | run => exact registered
  | clearRunning => exact registered
  | terminate => exact registered
  | terminated => exact registered

theorem childStep_registers {state : State T} {main : T} {number : Nat}
    (first : (state.child number).phase = .initThreadMessageQueue) :
    (state.childStep main number).messageQueues (state.child number).id = true := by
  show (state.threadMain main number (state.child number).phase).messageQueues _ = true
  rw [first]
  exact initThreadMessageQueue_registers state main number

inductive Moved (main : T) (state : State T) : Action T → State T → Prop
  | start {id} (idle : state.parent = .idle) (fresh : state.isFresh id = true) :
      Moved main state (.start (some id)) (state.start (some id))
  | startFails (idle : state.parent = .idle) : Moved main state (.start none) (state.start none)
  | waitLeft (waiting : state.parent = .waiting)
      (left : (state.startedEvent.waitTest ()).1 = true) :
      Moved main state .wait
        { state with startedEvent := (state.startedEvent.waitTest ()).2, parent := .started }
  | waitStays (waiting : state.parent = .waiting)
      (stays : (state.startedEvent.waitTest ()).1 = false) :
      Moved main state .wait { state with startedEvent := (state.startedEvent.waitTest ()).2 }
  | spuriousWakeup : Moved main state .spuriousWakeup
      { state with startedEvent := state.startedEvent.spuriousWakeup () }
  | startReturns (started : state.parent = .started) :
      Moved main state .startReturns state.startReturns
  | join (idle : state.parent = .idle) : Moved main state .join state.join
  | joinReturns (joining : state.parent = .joining) (terminated : state.handleTerminated = true) :
      Moved main state .joinReturns state.joinReturns
  | destroy (idle : state.parent = .idle) : Moved main state .destroy state.destroy
  | child {number} (created : number < state.created) :
      Moved main state (.child number) (state.childStep main number)
  | other {id registered} (may : state.mayRegister id = true) :
      Moved main state (.other id registered)
        { state with messageQueues := Function.update state.messageQueues id registered }

theorem step_moved {main : T} {state after : State T} {action : Action T}
    (moved : step main state action = some after) : Moved main state action after := by
  cases action with
  | start create =>
      simp only [step, Option.ite_none_right_eq_some, Option.some.injEq] at moved
      obtain ⟨⟨idle, fresh⟩, rfl⟩ := moved
      cases create with
      | none => exact .startFails idle
      | some id => exact .start idle (by simpa using fresh)
  | wait =>
      simp only [step, Option.ite_none_right_eq_some] at moved
      obtain ⟨⟨waiting, -⟩, moved⟩ := moved
      split at moved
      · rename_i event tested
        rw [← Option.some.inj moved, show event = (state.startedEvent.waitTest ()).2 by rw [tested]]
        exact .waitLeft waiting (by rw [tested])
      · rename_i event tested
        rw [← Option.some.inj moved, show event = (state.startedEvent.waitTest ()).2 by rw [tested]]
        exact .waitStays waiting (by rw [tested])
  | spuriousWakeup => exact Option.some.inj moved ▸ .spuriousWakeup
  | startReturns =>
      simp only [step, Option.ite_none_right_eq_some, Option.some.injEq] at moved
      exact moved.2 ▸ .startReturns moved.1
  | join =>
      simp only [step, Option.ite_none_right_eq_some, Option.some.injEq] at moved
      exact moved.2 ▸ .join moved.1
  | joinReturns =>
      simp only [step, Option.ite_none_right_eq_some, Option.some.injEq] at moved
      exact moved.2 ▸ .joinReturns moved.1.1 moved.1.2
  | destroy =>
      simp only [step, Option.ite_none_right_eq_some, Option.some.injEq] at moved
      exact moved.2 ▸ .destroy moved.1
  | child number =>
      simp only [step, Option.ite_none_right_eq_some, Option.some.injEq] at moved
      exact moved.2 ▸ .child moved.1
  | other id registered =>
      simp only [step, Option.ite_none_right_eq_some, Option.some.injEq] at moved
      exact moved.2 ▸ .other moved.1

omit [DecidableEq T] in
theorem start_older (state : State T) (id : T) {number : Nat} (created : number < state.created) :
    (state.start (some id)).child number = state.child number :=
  Function.update_of_ne (Nat.ne_of_lt created) _ _

omit [DecidableEq T] in
theorem start_newest (state : State T) (id : T) :
    (state.start (some id)).child state.created = ⟨id, .initThreadMessageQueue, false⟩ :=
  Function.update_self _ _ _

theorem isFresh_ne {state : State T} {id : T} (fresh : state.isFresh id = true) {number : Nat}
    (created : number < state.created) (alive : (state.child number).phase ≠ .terminated) :
    (state.child number).id ≠ id := by
  have here := List.all_eq_true.mp fresh number (List.mem_range.mpr created)
  simpa [alive] using here

theorem mayRegister_ne {state : State T} {id : T} (may : state.mayRegister id = true) {number : Nat}
    (created : number < state.created) (pending : (state.child number).phase.hookPending = true) :
    (state.child number).id ≠ id := by
  have here := List.all_eq_true.mp may number (List.mem_range.mpr created)
  simpa [pending] using here

/-- Living children have different ids, and those between their first statement and their end hook
are registered. -/
structure Registered (state : State T) : Prop where
  distinct : ∀ one other, one < state.created → other < state.created → one ≠ other →
    (state.child one).phase ≠ .terminated → (state.child other).phase ≠ .terminated →
    (state.child one).id ≠ (state.child other).id
  queued : ∀ number < state.created, (state.child number).phase.hasQueue = true →
    state.messageQueues (state.child number).id = true

theorem Registered.start {state : State T} (registered : Registered state) {id : T}
    (fresh : state.isFresh id = true) : Registered (state.start (some id)) := by
  have cases {number : Nat} (created : number < state.created + 1) :
      number < state.created ∨ number = state.created := by
    omega
  refine ⟨?_, ?_⟩
  · intro one other oneCreated otherCreated different oneAlive otherAlive
    rcases cases oneCreated with oneOld | rfl
    · rw [start_older state id oneOld] at oneAlive ⊢
      rcases cases otherCreated with otherOld | rfl
      · rw [start_older state id otherOld] at otherAlive ⊢
        exact registered.distinct one other oneOld otherOld different oneAlive otherAlive
      · rw [start_newest]
        exact isFresh_ne fresh oneOld oneAlive
    · rcases cases otherCreated with otherOld | rfl
      · rw [start_older state id otherOld] at otherAlive ⊢
        rw [start_newest]
        exact (isFresh_ne fresh otherOld otherAlive).symm
      · exact absurd rfl different
  · intro number created queue
    rcases cases created with old | rfl
    · rw [start_older state id old] at queue ⊢
      exact registered.queued number old queue
    · rw [start_newest] at queue
      contradiction

theorem childStep_alive {state : State T} {main : T} {number other : Nat}
    (alive : ((state.childStep main number).child other).phase ≠ .terminated) :
    (state.child other).phase ≠ .terminated := by
  by_cases here : other = number
  · rw [here, childStep_phase_self] at alive
    exact here ▸ next_alive alive
  · rwa [childStep_phase_other state main here] at alive

theorem Registered.child {state : State T} (registered : Registered state) {main : T} {number : Nat}
    (created : number < state.created) : Registered (state.childStep main number) := by
  refine ⟨?_, ?_⟩
  · intro one other oneCreated otherCreated different oneAlive otherAlive
    rw [childStep_created] at oneCreated otherCreated
    rw [childStep_id, childStep_id]
    exact registered.distinct one other oneCreated otherCreated different
      (childStep_alive oneAlive) (childStep_alive otherAlive)
  · intro other otherCreated queue
    rw [childStep_created] at otherCreated
    rw [childStep_id]
    by_cases here : other = number
    · rw [here, childStep_phase_self] at queue
      rw [here]
      rcases next_hasQueue queue with had | first
      · apply childStep_keeps (registered.queued number created had)
        intro hook
        rw [hook] at queue
        contradiction
      · exact childStep_registers first
    · rw [childStep_phase_other state main here] at queue
      apply childStep_keeps (registered.queued other otherCreated queue)
      intro hook
      exact registered.distinct other number otherCreated created here (hasQueue_alive queue)
        (by simp [hook])

theorem Registered.other {state : State T} (registered : Registered state) {id : T}
    (may : state.mayRegister id = true) (present : Bool) :
    Registered { state with messageQueues := Function.update state.messageQueues id present } := by
  refine ⟨registered.distinct, ?_⟩
  intro number created queue
  show Function.update state.messageQueues id present (state.child number).id = true
  rw [Function.update_of_ne (mayRegister_ne may created (hasQueue_hookPending queue))]
  exact registered.queued number created queue

omit [DecidableEq T] in
theorem Registered.frame {state after : State T} (registered : Registered state)
    (child : after.child = state.child) (created : after.created = state.created)
    (messageQueues : after.messageQueues = state.messageQueues) : Registered after := by
  obtain ⟨distinct, queued⟩ := registered
  rw [← child, ← created] at distinct queued
  rw [← messageQueues] at queued
  exact ⟨distinct, queued⟩

omit [DecidableEq T] in
theorem startReturns_children (state : State T) :
    state.startReturns.child = state.child ∧ state.startReturns.created = state.created ∧
      state.startReturns.messageQueues = state.messageQueues := by
  unfold State.startReturns
  split <;> exact ⟨rfl, rfl, rfl⟩

omit [DecidableEq T] in
theorem join_children (state : State T) :
    state.join.child = state.child ∧ state.join.created = state.created ∧
      state.join.messageQueues = state.messageQueues := by
  unfold State.join
  split <;> exact ⟨rfl, rfl, rfl⟩

theorem registered_step {main : T} {state after : State T} {action : Action T}
    (registered : Registered state) (moved : Moved main state action after) : Registered after := by
  cases moved with
  | start idle fresh => exact registered.start fresh
  | startFails idle => exact registered.frame rfl rfl rfl
  | waitLeft waiting left => exact registered.frame rfl rfl rfl
  | waitStays waiting stays => exact registered.frame rfl rfl rfl
  | spuriousWakeup => exact registered.frame rfl rfl rfl
  | startReturns started =>
      obtain ⟨child, created, messageQueues⟩ := startReturns_children state
      exact registered.frame child created messageQueues
  | join idle =>
      obtain ⟨child, created, messageQueues⟩ := join_children state
      exact registered.frame child created messageQueues
  | joinReturns joining terminated => exact registered.frame rfl rfl rfl
  | destroy idle => exact registered.frame rfl rfl rfl
  | child created => exact registered.child created
  | other may => exact registered.other may _

theorem reached_registered {main : T} {queues : T → Bool} {state : State T}
    (reach : Reached main queues state) : Registered state :=
  reach.invariant
    ⟨fun _ _ created => absurd created (Nat.not_lt_zero _),
      fun _ created => absurd created (Nat.not_lt_zero _)⟩
    fun _ _ _ registered _ moved => registered_step registered (step_moved moved)

structure Handshake (state : State T) : Prop where
  signalled : ∀ number < state.created, (state.child number).phase.hasSignalled = true ∨
    number + 1 = state.created ∧ state.parent = .waiting
  event : state.startedEvent.signal_ = true → state.parent = .waiting ∧
    ∀ number < state.created, (state.child number).phase.hasSignalled = true
  threadId : state.parent = .waiting ∨ state.parent = .started → ∀ number, number + 1 = state.created →
    (state.child number).phase.hasSetThreadId = true → state.threadId = some (state.child number).id
  nonempty : state.parent = .waiting ∨ state.parent = .started → 0 < state.created
  returned : ∀ entry ∈ state.returned, entry.2 < state.created ∧
    (state.child entry.2).id = entry.1 ∧ (state.child entry.2).phase.hasSignalled = true

section ChildStep
variable (state : State T) (main : T) (number : Nat)

variable {state number}

theorem childStep_threadId_set (set : (state.child number).phase = .setThreadId) :
    (state.childStep main number).threadId = some (state.child number).id := by
  simp only [State.childStep, State.setPhase, set]
  rfl

theorem childStep_threadId (kept : (state.child number).phase ≠ .setThreadId) :
    (state.childStep main number).threadId = state.threadId := by
  show (state.threadMain main number (state.child number).phase).threadId = _
  cases here : (state.child number).phase with
  | initThreadMessageQueue => exact (initThreadMessageQueue_sameMembers state main number).threadId
  | threadEndHook => exact (threadEndHook_sameMembers state number).threadId
  | setThreadId => exact absurd here kept
  | _ => rfl

theorem childStep_startedEvent (kept : (state.child number).phase ≠ .signal) :
    (state.childStep main number).startedEvent = state.startedEvent := by
  show (state.threadMain main number (state.child number).phase).startedEvent = _
  cases here : (state.child number).phase with
  | initThreadMessageQueue =>
      exact (initThreadMessageQueue_sameMembers state main number).startedEvent
  | threadEndHook => exact (threadEndHook_sameMembers state number).startedEvent
  | signal => exact absurd here kept
  | _ => rfl

theorem childStep_hasSignalled {other : Nat} (signalled : (state.child other).phase.hasSignalled = true) :
    ((state.childStep main number).child other).phase.hasSignalled = true := by
  by_cases here : other = number
  · rw [here] at signalled
    rw [here, childStep_phase_self]
    exact next_hasSignalled signalled
  · rwa [childStep_phase_other state main here]

end ChildStep

omit [DecidableEq T] in
theorem Handshake.youngest {state : State T} (handshake : Handshake state) {number : Nat}
    (created : number < state.created) (silent : (state.child number).phase.hasSignalled = false) :
    number + 1 = state.created ∧ state.parent = .waiting := by
  rcases handshake.signalled number created with signalled | youngest
  · rw [silent] at signalled
    contradiction
  · exact youngest

theorem Handshake.child {state : State T} (handshake : Handshake state) {main : T} {number : Nat}
    (created : number < state.created) : Handshake (state.childStep main number) where
  signalled := by
    rw [childStep_created, childStep_parent]
    intro other otherCreated
    rcases handshake.signalled other otherCreated with signalled | youngest
    · exact .inl (childStep_hasSignalled main signalled)
    · exact .inr youngest
  event := by
    rw [childStep_created, childStep_parent]
    intro set
    by_cases signals : (state.child number).phase = .signal
    · obtain ⟨youngest, waiting⟩ := handshake.youngest created (by rw [signals]; rfl)
      refine ⟨waiting, fun other otherCreated => ?_⟩
      by_cases here : other = number
      · rw [here, childStep_phase_self, signals]
        rfl
      · rcases handshake.signalled other otherCreated with signalled | other_youngest
        · exact childStep_hasSignalled main signalled
        · omega
    · rw [childStep_startedEvent main signals] at set
      obtain ⟨waiting, signalled⟩ := handshake.event set
      exact ⟨waiting, fun other otherCreated =>
        childStep_hasSignalled main (signalled other otherCreated)⟩
  threadId := by
    rw [childStep_created, childStep_parent]
    intro starting other youngest hasSet
    rw [childStep_id]
    by_cases sets : (state.child number).phase = .setThreadId
    · have here : other = number := by
        have := (handshake.youngest created (by rw [sets]; rfl)).1
        omega
      rw [here, childStep_threadId_set main sets]
    · rw [childStep_threadId main sets]
      by_cases here : other = number
      · rw [here, childStep_phase_self] at hasSet
        rw [here] at youngest ⊢
        exact handshake.threadId starting number youngest
          ((next_hasSetThreadId hasSet).resolve_right sets)
      · rw [childStep_phase_other state main here] at hasSet
        exact handshake.threadId starting other youngest hasSet
  nonempty := by
    rw [childStep_created, childStep_parent]
    exact handshake.nonempty
  returned := by
    rw [(childStep_sameParent state main number).returned, childStep_created]
    intro entry member
    obtain ⟨entryCreated, id, signalled⟩ := handshake.returned entry member
    exact ⟨entryCreated, (childStep_id state main number entry.2).trans id,
      childStep_hasSignalled main signalled⟩

omit [DecidableEq T] in
theorem Handshake.start {state : State T} (handshake : Handshake state) (idle : state.parent = .idle)
    (id : T) : Handshake (state.start (some id)) := by
  have silent : state.startedEvent.signal_ ≠ true := by
    intro set
    have waiting := (handshake.event set).1
    rw [idle] at waiting
    contradiction
  refine ⟨?_, fun set => absurd set silent, ?_, fun _ => Nat.succ_pos _, ?_⟩
  · intro number created
    by_cases old : number < state.created
    · rw [start_older state id old]
      rcases handshake.signalled number old with signalled | ⟨-, waiting⟩
      · exact .inl signalled
      · rw [idle] at waiting
        contradiction
    · have youngest : number = state.created := by
        have : number < state.created + 1 := created
        omega
      exact .inr ⟨congrArg (· + 1) youngest, rfl⟩
  · intro _ number youngest hasSet
    have here : number = state.created := Nat.succ.inj youngest
    rw [here, start_newest] at hasSet
    contradiction
  · intro entry member
    obtain ⟨created, handed⟩ := handshake.returned entry member
    refine ⟨Nat.lt_succ_of_lt created, ?_⟩
    rw [start_older state id created]
    exact handed

omit [DecidableEq T] in
theorem Handshake.allSignalled {state : State T} (handshake : Handshake state)
    (started : state.parent = .started) (number : Nat) (created : number < state.created) :
    (state.child number).phase.hasSignalled = true := by
  rcases handshake.signalled number created with signalled | ⟨-, waiting⟩
  · exact signalled
  · rw [started] at waiting
    contradiction

omit [DecidableEq T] in
theorem Handshake.started_threadId {state : State T} (handshake : Handshake state)
    (started : state.parent = .started) : state.created - 1 < state.created ∧
      state.threadId = some (state.child (state.created - 1)).id := by
  have positive := handshake.nonempty (.inr started)
  have last : state.created - 1 < state.created := by
    omega
  refine ⟨last, handshake.threadId (.inr started) _ (by omega) ?_⟩
  exact hasSignalled_hasSetThreadId (handshake.allSignalled started _ last)

omit [DecidableEq T] in
theorem Handshake.startReturns {state : State T} (handshake : Handshake state)
    (started : state.parent = .started) : Handshake state.startReturns := by
  have signalled := handshake.allSignalled started
  have silent : state.startedEvent.signal_ ≠ true := by
    intro set
    have waiting := (handshake.event set).1
    rw [started] at waiting
    contradiction
  obtain ⟨last, threadId⟩ := handshake.started_threadId started
  unfold State.startReturns
  rw [threadId]
  refine ⟨fun number created => .inl (signalled number created), fun set => absurd set silent,
    by simp, by simp, ?_⟩
  intro entry member
  rcases List.mem_append.mp member with earlier | now
  · exact handshake.returned entry earlier
  · rw [List.mem_singleton.mp now]
    exact ⟨last, rfl, signalled _ last⟩

omit [DecidableEq T] in
theorem Handshake.elsewhere {state after : State T} (handshake : Handshake state)
    (before : state.parent ≠ .waiting) (waiting : after.parent ≠ .waiting)
    (started : after.parent ≠ .started) (child : after.child = state.child)
    (created : after.created = state.created)
    (signal_ : after.startedEvent.signal_ = state.startedEvent.signal_)
    (returned : after.returned = state.returned) : Handshake after where
  signalled := by
    rw [child, created]
    intro number numberCreated
    rcases handshake.signalled number numberCreated with signalled | youngest
    · exact .inl signalled
    · exact absurd youngest.2 before
  event := by
    rw [signal_]
    intro set
    exact absurd (handshake.event set).1 before
  threadId := by
    rintro (now | now)
    · exact absurd now waiting
    · exact absurd now started
  nonempty := by
    rintro (now | now)
    · exact absurd now waiting
    · exact absurd now started
  returned := by
    rw [child, created, returned]
    exact handshake.returned

theorem handshake_step {main : T} {state after : State T} {action : Action T}
    (handshake : Handshake state) (moved : Moved main state action after) : Handshake after := by
  cases moved with
  | @start id idle fresh => exact handshake.start idle id
  | startFails idle =>
      have now : (state.start none).parent = .idle := idle
      exact handshake.elsewhere (by simp [idle]) (by simp [now]) (by simp [now]) rfl rfl rfl rfl
  | waitLeft waiting left =>
      obtain ⟨set, cleared⟩ := Event.waitTest_left left
      have signalled := (handshake.event set).2
      refine ⟨fun number created => .inl (signalled number created), ?_, ?_, ?_, handshake.returned⟩
      · intro again
        rw [cleared] at again
        contradiction
      · exact fun _ => handshake.threadId (.inl waiting)
      · exact fun _ => handshake.nonempty (.inl waiting)
  | waitStays waiting stays =>
      refine ⟨handshake.signalled, ?_, handshake.threadId, handshake.nonempty, handshake.returned⟩
      intro set
      rw [Event.waitTest_stays stays] at set
      exact handshake.event set
  | spuriousWakeup =>
      exact ⟨handshake.signalled, handshake.event, handshake.threadId, handshake.nonempty,
        handshake.returned⟩
  | startReturns started => exact handshake.startReturns started
  | join idle =>
      unfold State.join
      split
      · exact handshake.elsewhere (by simp [idle]) (by simp) (by simp) rfl rfl rfl rfl
      · exact handshake.elsewhere (by simp [idle]) (by simp [idle]) (by simp [idle]) rfl rfl rfl rfl
  | joinReturns joining terminated =>
      exact handshake.elsewhere (by simp [joining]) (by simp [State.joinReturns])
        (by simp [State.joinReturns]) rfl rfl rfl rfl
  | destroy idle =>
      exact handshake.elsewhere (by simp [idle]) (by simp [State.destroy]) (by simp [State.destroy])
        rfl rfl rfl rfl
  | child created => exact handshake.child created
  | other may =>
      exact ⟨handshake.signalled, handshake.event, handshake.threadId, handshake.nonempty,
        handshake.returned⟩

theorem reached_handshake {main : T} {queues : T → Bool} {state : State T}
    (reach : Reached main queues state) : Handshake state :=
  reach.invariant
    ⟨fun _ created => absurd created (Nat.not_lt_zero _), fun set => absurd set Bool.false_ne_true,
      by simp [State.init], by simp [State.init], by simp [State.init]⟩
    fun _ _ _ handshake _ moved => handshake_step handshake (step_moved moved)

theorem returned_accepted {main : T} {queues : T → Bool} {state : State T}
    (reach : Reached main queues state) {id : T} {number : Nat} (returned : (id, number) ∈ state.returned)
    (pending : (state.child number).phase.hookPending = true) : state.send id = true := by
  obtain ⟨created, own, signalled⟩ := (reached_handshake reach).returned _ returned
  have own : (state.child number).id = id := own
  show state.messageQueues id = true
  rw [← own]
  apply (reached_registered reach).queued number created
  cases here : (state.child number).phase <;> rw [here] at signalled pending <;>
    first | rfl | contradiction

end ThreadIpc.ThreadStart

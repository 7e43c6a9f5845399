import ThreadIpc.ThreadStart.Handshake

/-!
# A `Join` after each `Start`

When every `Start` that returned an id is joined before the next one and before the destructor, a
child that has not terminated is always the one in `handle_`, and no assertion fails.
-/

namespace ThreadIpc.ThreadStart

section Phases
variable {phase : ChildPhase}

theorem next_mayBeRunning (running : phase.mayBeRunning = true) (still : phase ≠ .clearRunning) :
    phase.next.mayBeRunning = true := by
  cases phase <;> first | rfl | contradiction

theorem mayBeRunning_alive (running : phase.mayBeRunning = true) : phase ≠ .terminated := by
  rintro rfl
  contradiction

end Phases

variable {T : Type}

structure Disciplined (state : State T) : Prop where
  running : state.isRunning = true →
    ∃ number < state.created, (state.child number).phase.mayBeRunning = true
  alive : ∀ number < state.created, (state.child number).phase ≠ .terminated →
    state.handle = some number
  joined : state.parent = .idle ∧ state.needsJoin = false ∨ state.parent = .destroyed →
    state.threadId = none ∧ state.handle = none
  joinable : state.parent = .idle → state.needsJoin = true → state.threadId ≠ none
  starting : state.parent = .waiting ∨ state.parent = .started → state.needsJoin = false
  assertFailed : state.assertFailed = false
  usedAfterDestruction : state.usedAfterDestruction = false

theorem Disciplined.allTerminated {state : State T} (disciplined : Disciplined state)
    (handle : state.handle = none) {number : Nat} (created : number < state.created) :
    (state.child number).phase = .terminated := by
  by_contra alive
  rw [disciplined.alive number created alive] at handle
  contradiction

theorem Disciplined.notRunning {state : State T} (disciplined : Disciplined state)
    (handle : state.handle = none) : state.isRunning = false := by
  cases running : state.isRunning with
  | false => rfl
  | true =>
      obtain ⟨number, created, mayBe⟩ := disciplined.running running
      exact absurd (disciplined.allTerminated handle created) (mayBeRunning_alive mayBe)

theorem Disciplined.asserts {state : State T} (disciplined : Disciplined state)
    (threadId : state.threadId = none) (handle : state.handle = none) :
    (state.assertFailed ||
      !(!state.isRunning && state.threadId.isNone && state.handle.isNone)) = false := by
  rw [disciplined.assertFailed, disciplined.notRunning handle, threadId, handle]
  rfl

theorem Disciplined.start {state : State T} (disciplined : Disciplined state)
    (threadId : state.threadId = none) (handle : state.handle = none)
    (needsJoin : state.needsJoin = false) (id : T) : Disciplined (state.start (some id)) where
  running := by
    intro running
    exact absurd ((disciplined.notRunning handle).symm.trans running) Bool.false_ne_true
  alive := by
    intro number created alive
    by_cases old : number < state.created
    · rw [show (state.start (some id)).child number = state.child number from
        Function.update_of_ne (Nat.ne_of_lt old) _ _] at alive
      exact absurd (disciplined.allTerminated handle old) alive
    · have : number < state.created + 1 := created
      exact congrArg some (by omega)
  joined := by simp [State.start]
  joinable := by simp [State.start]
  starting := fun _ => needsJoin
  assertFailed := disciplined.asserts threadId handle
  usedAfterDestruction := disciplined.usedAfterDestruction

variable [DecidableEq T]

theorem childStep_isRunning (state : State T) (main : T) {number : Nat}
    (running : (state.childStep main number).isRunning = true) :
    (state.isRunning = true ∧ (state.child number).phase ≠ .clearRunning) ∨
      (state.child number).phase = .setRunning := by
  change (state.threadMain main number (state.child number).phase).isRunning = true at running
  cases here : (state.child number).phase <;> rw [here] at running
  case setRunning => exact .inr rfl
  case clearRunning => contradiction
  case initThreadMessageQueue =>
    have same := (initThreadMessageQueue_sameMembers state main number).isRunning
    exact .inl ⟨same ▸ running, by simp⟩
  case threadEndHook =>
    have same := (threadEndHook_sameMembers state number).isRunning
    exact .inl ⟨same ▸ running, by simp⟩
  all_goals exact .inl ⟨running, by simp⟩

omit [DecidableEq T] in
theorem touch_usedAfterDestruction {state : State T} (elsewhere : state.parent ≠ .destroyed) :
    state.touch.usedAfterDestruction = state.usedAfterDestruction := by
  simp [State.touch, elsewhere]

theorem childStep_usedAfterDestruction {state : State T} (elsewhere : state.parent ≠ .destroyed)
    (main : T) (number : Nat) :
    (state.childStep main number).usedAfterDestruction = state.usedAfterDestruction := by
  show (state.threadMain main number (state.child number).phase).usedAfterDestruction = _
  cases (state.child number).phase with
  | initThreadMessageQueue =>
      exact (initThreadMessageQueue_sameMembers state main number).usedAfterDestruction
  | threadEndHook => exact (threadEndHook_sameMembers state number).usedAfterDestruction
  | run => rfl
  | terminate => rfl
  | terminated => rfl
  | setThreadId => exact touch_usedAfterDestruction elsewhere
  | setRunning => exact touch_usedAfterDestruction elsewhere
  | signal => exact touch_usedAfterDestruction elsewhere
  | clearRunning => exact touch_usedAfterDestruction elsewhere

theorem childStep_terminated {state : State T} {number : Nat} (main : T)
    (terminated : (state.child number).phase = .terminated) : state.childStep main number = state := by
  have same : { state.child number with phase := .terminated } = state.child number := by
    rw [← terminated]
  simp only [State.childStep, State.threadMain, State.setPhase, terminated, ChildPhase.next, same,
    Function.update_eq_self]

theorem childStep_threadId_some {state : State T} {number : Nat} (main : T)
    (set : state.threadId ≠ none) : (state.childStep main number).threadId ≠ none := by
  by_cases sets : (state.child number).phase = .setThreadId
  · rw [childStep_threadId_set main sets]
    exact Option.some_ne_none _
  · rwa [childStep_threadId main sets]

theorem Disciplined.childRunning {state : State T} (disciplined : Disciplined state) (main : T)
    {number : Nat} (created : number < state.created)
    (running : (state.childStep main number).isRunning = true) :
    ∃ other < state.created, ((state.childStep main number).child other).phase.mayBeRunning = true := by
  rcases childStep_isRunning state main running with ⟨was, still⟩ | sets
  · obtain ⟨other, otherCreated, mayBe⟩ := disciplined.running was
    refine ⟨other, otherCreated, ?_⟩
    by_cases here : other = number
    · rw [here] at mayBe
      rw [here, childStep_phase_self]
      exact next_mayBeRunning mayBe still
    · rwa [childStep_phase_other state main here]
  · refine ⟨number, created, ?_⟩
    rw [childStep_phase_self, sets]
    rfl

theorem Disciplined.child {state : State T} (disciplined : Disciplined state) (main : T) {number : Nat}
    (created : number < state.created) : Disciplined (state.childStep main number) := by
  by_cases alive : (state.child number).phase = .terminated
  · rwa [childStep_terminated main alive]
  have handle := disciplined.alive number created alive
  obtain ⟨sameCreated, sameParent, sameHandle, -, sameNeedsJoin, sameAssertFailed⟩ :=
    childStep_sameParent state main number
  have unjoined : ¬ (state.parent = .idle ∧ state.needsJoin = false ∨ state.parent = .destroyed) := by
    intro joined
    rw [(disciplined.joined joined).2] at handle
    contradiction
  refine ⟨?_, ?_, ?_, ?_, ?_, ?_, ?_⟩
  · rw [sameCreated]
    exact disciplined.childRunning main created
  · rw [sameCreated, sameHandle]
    intro other otherCreated otherAlive
    exact disciplined.alive other otherCreated (childStep_alive otherAlive)
  · rw [sameParent, sameNeedsJoin]
    exact fun joined => absurd joined unjoined
  · rw [sameParent, sameNeedsJoin]
    intro idle needsJoin
    exact childStep_threadId_some main (disciplined.joinable idle needsJoin)
  · rw [sameParent, sameNeedsJoin]
    exact disciplined.starting
  · rw [sameAssertFailed]
    exact disciplined.assertFailed
  · rw [childStep_usedAfterDestruction (fun destroyed => unjoined (.inr destroyed))]
    exact disciplined.usedAfterDestruction

theorem disciplined_step {main : T} {state after : State T} {action : Action T}
    (handshake : Handshake state) (disciplined : Disciplined state)
    (allowed : joinsFirst state action) (moved : Moved main state action after) :
    Disciplined after := by
  cases moved with
  | @start id idle fresh =>
      obtain ⟨threadId, handle⟩ := disciplined.joined (.inl ⟨idle, allowed⟩)
      exact disciplined.start threadId handle allowed id
  | startFails idle =>
      obtain ⟨threadId, handle⟩ := disciplined.joined (.inl ⟨idle, allowed⟩)
      refine ⟨disciplined.running, ?_, fun _ => ⟨threadId, rfl⟩, disciplined.joinable,
        disciplined.starting, disciplined.asserts threadId handle, disciplined.usedAfterDestruction⟩
      intro number created alive
      exact absurd (disciplined.allTerminated handle created) alive
  | waitLeft waiting left =>
      exact ⟨disciplined.running, disciplined.alive, by simp, by simp,
        fun _ => disciplined.starting (.inl waiting), disciplined.assertFailed,
        disciplined.usedAfterDestruction⟩
  | waitStays waiting stays =>
      exact ⟨disciplined.running, disciplined.alive, disciplined.joined, disciplined.joinable,
        disciplined.starting, disciplined.assertFailed, disciplined.usedAfterDestruction⟩
  | spuriousWakeup =>
      exact ⟨disciplined.running, disciplined.alive, disciplined.joined, disciplined.joinable,
        disciplined.starting, disciplined.assertFailed, disciplined.usedAfterDestruction⟩
  | startReturns started =>
      unfold State.startReturns
      split
      · rename_i id threadId
        refine ⟨disciplined.running, disciplined.alive, by simp, ?_, by simp,
          disciplined.assertFailed, disciplined.usedAfterDestruction⟩
        intro _ _
        rw [threadId]
        exact Option.some_ne_none id
      · rename_i threadId
        rw [(handshake.started_threadId started).2] at threadId
        contradiction
  | join idle =>
      unfold State.join
      split
      · exact ⟨disciplined.running, disciplined.alive, by simp, by simp, by simp,
          disciplined.assertFailed, disciplined.usedAfterDestruction⟩
      · rename_i threadId
        refine ⟨disciplined.running, disciplined.alive, fun _ => ?_, by simp, fun _ => rfl,
          disciplined.assertFailed, disciplined.usedAfterDestruction⟩
        cases needsJoin : state.needsJoin with
        | true => exact absurd threadId (disciplined.joinable idle needsJoin)
        | false => exact disciplined.joined (.inl ⟨idle, needsJoin⟩)
  | joinReturns joining terminated =>
      refine ⟨disciplined.running, ?_, fun _ => ⟨rfl, rfl⟩, by simp [State.joinReturns],
        by simp [State.joinReturns], disciplined.assertFailed, disciplined.usedAfterDestruction⟩
      intro number created alive
      rw [State.handleTerminated, disciplined.alive number created alive] at terminated
      exact absurd (of_decide_eq_true terminated) alive
  | destroy idle =>
      obtain ⟨threadId, handle⟩ := disciplined.joined (.inl ⟨idle, allowed⟩)
      exact ⟨disciplined.running, disciplined.alive, fun _ => ⟨threadId, handle⟩,
        by simp [State.destroy], by simp [State.destroy], disciplined.asserts threadId handle,
        disciplined.usedAfterDestruction⟩
  | child created => exact disciplined.child main created
  | other may =>
      exact ⟨disciplined.running, disciplined.alive, disciplined.joined, disciplined.joinable,
        disciplined.starting, disciplined.assertFailed, disciplined.usedAfterDestruction⟩

theorem reached_disciplined {main : T} {queues : T → Bool} {state : State T}
    (reach : Lib.Reachable (step main) joinsFirst (.init main queues) state) : Disciplined state :=
  reach.invariant_beside
    (fun _ reach => reached_handshake (reach.weaken fun _ _ _ => trivial))
    ⟨by simp [State.init], by simp [State.init], fun _ => ⟨rfl, rfl⟩, by simp [State.init],
      fun _ => rfl, rfl, rfl⟩
    fun _ _ _ handshake disciplined allowed moved =>
      disciplined_step handshake disciplined allowed (step_moved moved)

theorem thread_start_handshake (main : T) (queues : T → Bool) (state : State T) :
    (Reached main queues state → ∀ id number, (id, number) ∈ state.returned →
      number < state.created ∧ (state.child number).id = id ∧
      (state.child number).phase.hasSignalled = true ∧
      ((state.child number).phase.hookPending = true → state.send id = true)) ∧
    (Lib.Reachable (step main) joinsFirst (.init main queues) state →
      state.assertFailed = false ∧ state.usedAfterDestruction = false) := by
  refine ⟨fun reach id number returned => ?_, fun reach => ?_⟩
  · obtain ⟨created, own, signalled⟩ := (reached_handshake reach).returned _ returned
    exact ⟨created, own, signalled, returned_accepted reach returned⟩
  · have disciplined := reached_disciplined reach
    exact ⟨disciplined.assertFailed, disciplined.usedAfterDestruction⟩

/-- Two runs of one `Thread`; the second child gets the id of the first one again. -/
def restartRun : List (Action Nat) :=
  [.start (some 7), .wait, .child 0, .child 0, .child 0, .spuriousWakeup, .wait, .child 0, .wait,
   .startReturns, .child 0, .join, .child 0, .child 0, .child 0, .joinReturns, .start none,
   .start (some 7), .child 1, .child 1, .child 1, .child 1, .wait, .startReturns]

def restarted : State Nat :=
  Lib.final (step 1) joinsFirst (.init 1 fun _ => false) restartRun (by decide)

theorem restarted_handshake :
    restarted.returned = [(7, 0), (7, 1)] ∧ restarted.send 7 = true ∧
      restarted.assertFailed = false := by
  have reach : Lib.Reachable (step 1) joinsFirst (.init 1 fun _ => false) restarted :=
    Lib.reachable_final restartRun (by decide +kernel)
  obtain ⟨accepts, asserts⟩ := thread_start_handshake 1 (fun _ => false) restarted
  have returned : restarted.returned = [(7, 0), (7, 1)] := by
    decide +kernel
  refine ⟨returned, ?_, (asserts reach).1⟩
  obtain ⟨-, -, -, sends⟩ := accepts (reach.weaken fun _ _ _ => trivial) 7 1 (by simp [returned])
  exact sends (by decide +kernel)

end ThreadIpc.ThreadStart

import ThreadIpc.ThreadQueue.Model

/-!
# What one call of `RunOnce` dispatches

`RunOnce` waits once and then dispatches what its swap found. Senders push and signal in two steps,
so a signal may still be set for messages that an earlier swap took.
-/

namespace ThreadIpc.ThreadQueue

variable {T D : Type}

def Action.InsideCall (_ : State T D) (action : Action T D) : Prop :=
  match action with
  | .call _ => False
  | _ => True

structure BeforeSwap (start : List (Posted T D)) (state : State T D) : Prop where
  call : ∀ call, state.owner.call? = some call → call = .runOnce
  waiting : ∀ call, state.owner = .waiting call → state.dispatched = start
  popping : ∀ call, state.owner = .popping call → state.dispatched = start

structure AfterSwap (start batch : List (Posted T D)) (state : State T D) : Prop where
  split : state.dispatched ++ state.localEventQueue = start ++ batch
  call : ∀ call, state.owner.call? = some call → call = .runOnce
  swapped : ∀ call, state.owner ≠ .waiting call ∧ state.owner ≠ .popping call

section
variable {start batch : List (Posted T D)} {state after : State T D}

theorem takeFront_runOnce_nil : state.takeFront .runOnce [] = { state with owner := .idle } :=
  rfl

theorem takeFront_runOnce_cons (front : Posted T D) (rest : List (Posted T D)) :
    state.takeFront .runOnce (front :: rest) =
      { state with
        owner := .handling .runOnce rest
        dispatched := state.dispatched ++ [front] } := by
  rw [State.takeFront, if_neg]
  intro same
  cases same

theorem BeforeSwap.frame (inv : BeforeSwap start state) (owner : after.owner = state.owner)
    (dispatched : after.dispatched = state.dispatched) : BeforeSwap start after := by
  constructor
  · rw [owner]
    exact inv.call
  · rw [owner, dispatched]
    exact inv.waiting
  · rw [owner, dispatched]
    exact inv.popping

theorem AfterSwap.frame (inv : AfterSwap start batch state) (owner : after.owner = state.owner)
    (dispatched : after.dispatched = state.dispatched) : AfterSwap start batch after := by
  constructor
  · have same : after.localEventQueue = state.localEventQueue := by
      simp only [State.localEventQueue, owner]
    rw [same, dispatched]
    exact inv.split
  · rw [owner]
    exact inv.call
  · rw [owner]
    exact inv.swapped

theorem past_swap {owner : OwnerState T D} (past : owner = .idle ∨
      ∃ rest, owner = .dispatching .runOnce rest ∨ owner = .handling .runOnce rest) :
    (∀ call, owner.call? = some call → call = .runOnce) ∧
      ∀ call, owner ≠ .waiting call ∧ owner ≠ .popping call := by
  constructor
  · intro call current
    rcases past with rfl | ⟨rest, rfl | rfl⟩
    · cases current
    · exact (Option.some.inj current).symm
    · exact (Option.some.inj current).symm
  · intro call
    rcases past with rfl | ⟨rest, rfl | rfl⟩ <;> constructor <;> intro same <;> cases same

theorem takeFront_past (state : State T D) (rest : List (Posted T D)) :
    (state.takeFront .runOnce rest).owner = .idle ∨
      ∃ rest', (state.takeFront .runOnce rest).owner = .dispatching .runOnce rest' ∨
        (state.takeFront .runOnce rest).owner = .handling .runOnce rest' := by
  cases rest with
  | nil => exact .inl (by rw [takeFront_runOnce_nil])
  | cons front rest => exact .inr ⟨rest, .inr (by rw [takeFront_runOnce_cons])⟩

theorem BeforeSwap.past (past : after.owner = .idle ∨
      ∃ rest, after.owner = .dispatching .runOnce rest ∨ after.owner = .handling .runOnce rest) :
    BeforeSwap start after where
  call := (past_swap past).1
  waiting := fun made waiting => absurd waiting ((past_swap past).2 made).1
  popping := fun made popping => absurd popping ((past_swap past).2 made).2

theorem AfterSwap.takeFront {call : OwnerCall} {rest : List (Posted T D)}
    (inv : AfterSwap start batch state) (dispatching : state.owner = .dispatching call rest) :
    AfterSwap start batch (state.takeFront call rest) := by
  have same : call = .runOnce := inv.call call (by rw [dispatching, OwnerState.call?])
  subst same
  have split := inv.split
  simp only [State.localEventQueue, dispatching] at split
  obtain ⟨current, swapped⟩ := past_swap (takeFront_past state rest)
  refine ⟨?_, current, swapped⟩
  cases rest with
  | nil =>
      rw [takeFront_runOnce_nil]
      exact split
  | cons front rest =>
      rw [takeFront_runOnce_cons, ← split]
      simp only [State.localEventQueue, List.append_assoc, List.singleton_append]

/-- Signals that come with a message of theirs still in the queue and not between the owner's wait
and its swap. -/
def Action.SignalsFresh (state : State T D) (action : Action T D) : Prop :=
  match action with
  | .signal _ => state.eventQueue ≠ [] ∧ ∀ call, state.owner ≠ .popping call
  | _ => True

structure FreshInv (state : State T D) : Prop where
  signalled : state.event.signal_ = true → state.eventQueue ≠ []
  popping : ∀ call, state.owner = .popping call →
    state.eventQueue ≠ [] ∧ state.event.signal_ = false

theorem freshInv_init : FreshInv (State.init : State T D) where
  signalled := by
    intro signalled
    cases signalled
  popping := by
    intro call popping
    cases popping

theorem FreshInv.frame (inv : FreshInv state) (queue : after.eventQueue = state.eventQueue)
    (event : after.event.signal_ = state.event.signal_)
    (owner : ∀ call, after.owner = .popping call → state.owner = .popping call) :
    FreshInv after where
  signalled := by
    rw [queue, event]
    exact inv.signalled
  popping := by
    intro call popping
    rw [queue, event]
    exact inv.popping call (owner call popping)

end

section
variable [DecidableEq T] {threadId : T} {start batch : List (Posted T D)}
variable {before called swapping swapped returned state after : State T D} {action : Action T D}

abbrev InsideReached (threadId : T) (called state : State T D) : Prop :=
  Lib.Reachable (step threadId) (fun state action => action.InsideCall state) called state

theorem BeforeSwap.step (inv : BeforeSwap start state) (inside : action.InsideCall state)
    (moved : step threadId state action = some after) : BeforeSwap start after := by
  cases step_moved moved with
  | push may => exact inv.frame rfl rfl
  | signal pushed => exact inv.frame rfl rfl
  | call idle => exact absurd inside id
  | @waitLeft call waiting left =>
      have same : call = .runOnce := inv.call call (by rw [waiting, OwnerState.call?])
      refine ⟨?_, ?_, fun _ _ => inv.waiting call waiting⟩
      · intro made current
        rw [← Option.some.inj current]
        exact same
      · intro made popping
        cases popping
  | waitStays waiting stays => exact inv.frame rfl rfl
  | spuriousWakeup => exact inv.frame rfl rfl
  | @popMessages call popping =>
      have same : call = .runOnce := inv.call call (by rw [popping, OwnerState.call?])
      subst same
      exact BeforeSwap.past (.inr ⟨_, .inl rfl⟩)
  | @takeFront call rest dispatching =>
      have same : call = .runOnce := inv.call call (by rw [dispatching, OwnerState.call?])
      subst same
      exact BeforeSwap.past (takeFront_past state rest)
  | @handlerReturns call rest handling =>
      have same : call = .runOnce := inv.call call (by rw [handling, OwnerState.call?])
      subst same
      exact BeforeSwap.past (.inr ⟨rest, .inl rfl⟩)

theorem AfterSwap.step (inv : AfterSwap start batch state) (inside : action.InsideCall state)
    (moved : step threadId state action = some after) : AfterSwap start batch after := by
  cases step_moved moved with
  | push may => exact inv.frame rfl rfl
  | signal pushed => exact inv.frame rfl rfl
  | call idle => exact absurd inside id
  | @waitLeft call waiting left => exact absurd waiting (inv.swapped call).1
  | waitStays waiting stays => exact inv.frame rfl rfl
  | spuriousWakeup => exact inv.frame rfl rfl
  | @popMessages call popping => exact absurd popping (inv.swapped call).2
  | takeFront dispatching => exact inv.takeFront dispatching
  | @handlerReturns call rest handling =>
      have same : call = .runOnce := inv.call call (by rw [handling, OwnerState.call?])
      subst same
      have split := inv.split
      simp only [State.localEventQueue, handling] at split
      obtain ⟨current, swapped⟩ := past_swap (.inr ⟨rest, .inl rfl⟩)
      exact ⟨split, current, swapped⟩

theorem beforeSwap_called (call : step threadId before (.call .runOnce) = some called) :
    BeforeSwap before.dispatched called := by
  cases step_moved call with
  | call idle =>
      refine ⟨?_, fun _ _ => rfl, fun _ _ => rfl⟩
      intro made current
      exact (Option.some.inj current).symm

/-- A returned `RunOnce` has dispatched the messages its swap found, all of them and in order. -/
theorem runOnce_dispatches_swapped
    (call : step threadId before (.call .runOnce) = some called)
    (waited : InsideReached threadId called swapping)
    (swap : step threadId swapping .popMessages = some swapped)
    (dispatched : InsideReached threadId swapped returned)
    (idle : returned.owner = .idle) :
    returned.dispatched = before.dispatched ++ swapping.eventQueue := by
  have unswapped : BeforeSwap before.dispatched swapping :=
    waited.invariant (beforeSwap_called call) fun _ _ _ inv inside moved => inv.step inside moved
  have begun : AfterSwap before.dispatched swapping.eventQueue swapped := by
    cases step_moved swap with
    | @popMessages made popping =>
        have same : made = .runOnce :=
          unswapped.call made (by rw [popping, OwnerState.call?])
        subst same
        obtain ⟨current, past⟩ := past_swap (.inr ⟨swapping.eventQueue, .inl rfl⟩)
        refine ⟨?_, current, past⟩
        simp only [State.popMessages, State.localEventQueue]
        rw [unswapped.popping .runOnce popping]
  have ended : AfterSwap before.dispatched swapping.eventQueue returned :=
    dispatched.invariant begun fun _ _ _ inv inside moved => inv.step inside moved
  have split := ended.split
  simp only [State.localEventQueue, idle, List.append_nil] at split
  exact split

def SwapBehind (threadId : T) (called state : State T D) : Prop :=
  (∃ call, state.owner = .waiting call ∨ state.owner = .popping call) ∨
    ∃ swapping swapped, InsideReached threadId called swapping ∧
      step threadId swapping .popMessages = some swapped ∧ InsideReached threadId swapped state

theorem SwapBehind.step (reach : InsideReached threadId called state)
    (inv : SwapBehind threadId called state) (inside : action.InsideCall state)
    (moved : step threadId state action = some after) : SwapBehind threadId called after := by
  rcases inv with ⟨call, waits⟩ | ⟨swapping, swapped, waited, swap, dispatched⟩
  · cases step_moved moved with
    | push may => exact .inl ⟨call, waits⟩
    | signal pushed => exact .inl ⟨call, waits⟩
    | call idle => exact absurd inside id
    | @waitLeft made waiting left => exact .inl ⟨made, .inr rfl⟩
    | waitStays waiting stays => exact .inl ⟨call, waits⟩
    | spuriousWakeup => exact .inl ⟨call, waits⟩
    | popMessages popping => exact .inr ⟨state, _, reach, moved, .start⟩
    | takeFront dispatching =>
        rw [dispatching] at waits
        rcases waits with waiting | popping <;> contradiction
    | handlerReturns handling =>
        rw [handling] at waits
        rcases waits with waiting | popping <;> contradiction
  · exact .inr ⟨swapping, swapped, waited, swap, .next dispatched inside moved⟩

theorem runOnce_progress_iff (call : step threadId before (.call .runOnce) = some called)
    (inside : InsideReached threadId called returned) (idle : returned.owner = .idle) :
    ∃ swapping swapped, InsideReached threadId called swapping ∧
      step threadId swapping .popMessages = some swapped ∧
      InsideReached threadId swapped returned ∧
      (before.dispatched.length < returned.dispatched.length ↔ swapping.eventQueue ≠ []) := by
  have begun : SwapBehind threadId called called := by
    cases step_moved call with
    | call idle => exact .inl ⟨.runOnce, .inl rfl⟩
  have ended : SwapBehind threadId called returned :=
    inside.invariant_beside (fun _ reach => reach) begun
      fun _ _ _ reach inv inside moved => inv.step reach inside moved
  rcases ended with ⟨made, waits⟩ | ⟨swapping, swapped, waited, swap, dispatched⟩
  · rw [idle] at waits
    rcases waits with waiting | popping <;> contradiction
  · refine ⟨swapping, swapped, waited, swap, dispatched, ?_⟩
    rw [runOnce_dispatches_swapped call waited swap dispatched idle, List.length_append,
      ← List.length_pos_iff]
    omega

theorem FreshInv.step (inv : FreshInv state) (fresh : action.SignalsFresh state)
    (moved : step threadId state action = some after) : FreshInv after := by
  cases step_moved moved with
  | push may =>
      refine ⟨fun _ => List.append_ne_nil_of_right_ne_nil _ (List.cons_ne_nil _ _), ?_⟩
      intro call popping
      exact ⟨List.append_ne_nil_of_right_ne_nil _ (List.cons_ne_nil _ _),
        (inv.popping call popping).2⟩
  | signal pushed => exact ⟨fun _ => fresh.1, fun call popping => absurd popping (fresh.2 call)⟩
  | call idle =>
      refine inv.frame rfl rfl ?_
      intro call popping
      cases popping
  | waitLeft waiting left =>
      obtain ⟨signalled, taken⟩ := Event.waitTest_left left
      refine ⟨?_, fun _ _ => ⟨inv.signalled signalled, taken⟩⟩
      intro still
      rw [taken] at still
      contradiction
  | waitStays waiting stays =>
      exact inv.frame rfl (Event.waitTest_stays stays) fun call popping => popping
  | spuriousWakeup => exact inv.frame rfl rfl fun call popping => popping
  | @popMessages call popping =>
      refine ⟨?_, ?_⟩
      · intro signalled
        rw [show (state.popMessages call).event = state.event from rfl,
          (inv.popping call popping).2] at signalled
        contradiction
      · intro other still
        cases still
  | @takeFront call batch dispatching =>
      refine inv.frame (takeFront_eventQueue state call batch)
        (congrArg Event.signal_ (takeFront_event state call batch)) ?_
      intro other popping
      unfold State.takeFront at popping
      split at popping <;> split at popping <;> cases popping
  | handlerReturns handling =>
      refine inv.frame rfl rfl ?_
      intro other popping
      cases popping

/-- No swap comes away empty in a run whose signals are all fresh. -/
theorem swap_finds_message
    (reach : Lib.Reachable (step threadId) (fun state action => action.SignalsFresh state) .init
      swapping)
    (swap : step threadId swapping .popMessages = some swapped) : swapping.eventQueue ≠ [] := by
  have inv : FreshInv swapping :=
    reach.invariant freshInv_init fun _ _ _ inv fresh moved => inv.step fresh moved
  cases step_moved swap with
  | @popMessages call popping => exact (inv.popping call popping).1

end

instance (state : State T D) (action : Action T D) : Decidable (action.InsideCall state) :=
  match action with
  | .call _ => instDecidableFalse
  | .push .. | .signal .. | .wait | .spuriousWakeup | .popMessages | .takeFront
  | .handlerReturns => instDecidableTrue

def onceCalled (state : State Bool Unit) : State Bool Unit :=
  { state with owner := .waiting .runOnce, calls := state.calls ++ [.runOnce] }

/-- The second message is pushed between the wait and the swap of a `RunOnce` that takes both, and
its signal comes after the swap. -/
def lateSignalRun : List (Action Bool Unit) :=
  [.push false ⟨100, ()⟩, .signal false, .call .runOnce, .wait, .push false ⟨101, ()⟩,
    .popMessages, .signal false, .takeFront, .handlerReturns, .takeFront, .handlerReturns,
    .takeFront]

def lateSignal : State Bool Unit :=
  Lib.final (step true) Lib.anyAction .init lateSignalRun (by decide)

def emptySwapRun : List (Action Bool Unit) :=
  [.wait, .popMessages, .takeFront]

theorem runOnce_returns_without_message : ∃ returned : State Bool Unit, Reached true lateSignal ∧
    step true lateSignal (.call .runOnce) = some (onceCalled lateSignal) ∧
    InsideReached true (onceCalled lateSignal) returned ∧
    returned.owner = .idle ∧ returned.dispatched = lateSignal.dispatched := by
  refine ⟨Lib.final (step true) (fun state action => action.InsideCall state)
    (onceCalled lateSignal) emptySwapRun (by decide), ?_, rfl, ?_, rfl, rfl⟩
  · exact Lib.reachable_final lateSignalRun (by decide)
  · exact Lib.reachable_final emptySwapRun (by decide)

def pushedInTimeRun : List (Action Bool Unit) :=
  [.wait, .push false ⟨102, ()⟩, .popMessages, .takeFront, .handlerReturns, .takeFront]

def pushedInTime : State Bool Unit :=
  Lib.final (step true) (fun state action => action.InsideCall state) (onceCalled lateSignal)
    pushedInTimeRun (by decide)

theorem runOnce_progress_pushedInTime : ∃ swapping swapped : State Bool Unit,
    step true swapping .popMessages = some swapped ∧
      (lateSignal.dispatched.length < pushedInTime.dispatched.length ↔
        swapping.eventQueue ≠ []) ∧ pushedInTime.owner = .idle := by
  have called : step true lateSignal (.call .runOnce) = some (onceCalled lateSignal) := rfl
  obtain ⟨swapping, swapped, -, swap, -, progress⟩ :=
    runOnce_progress_iff called (Lib.reachable_final pushedInTimeRun (by decide)) rfl
  exact ⟨swapping, swapped, swap, progress, rfl⟩

end ThreadIpc.ThreadQueue

import ThreadIpc.ThreadQueue.Delivery

/-!
# A loop that is stopped and started again

A call of `GetAndDispatchMessages` gives up what stands behind the exit message in its batch. What
stands in front of it, or is pushed after the swap, is left to this call or to a later one.
-/

namespace ThreadIpc.ThreadQueue

variable {T D : Type}

def State.plain (exitType : Int32) (messages : List (Posted T D)) : List (Posted T D) :=
  messages.filter fun posted => !posted.isExit exitType

def Action.CallsLoop (exitType : Int32) (action : Action T D) : Prop :=
  match action with
  | .call made => made = .getAndDispatchMessages exitType
  | _ => True

/-- When the loop takes an exit message, at most further ones stand behind it in the batch. -/
def Action.ExitsLast (exitType : Int32) (state : State T D) (action : Action T D) : Prop :=
  match action with
  | .takeFront => match state.localEventQueue with
      | [] => True
      | front :: rest => front.isExit exitType → ∀ posted ∈ rest, posted.isExit exitType
  | _ => True

def State.NothingDropped (exitType : Int32) (state : State T D) : Prop :=
  State.plain exitType state.pushed = State.plain exitType state.dispatched ++
    State.plain exitType state.localEventQueue ++ State.plain exitType state.eventQueue

structure Restarts (exitType : Int32) (state : State T D) : Prop where
  kept : state.NothingDropped exitType
  call : ∀ call, state.owner.call? = some call → call = .getAndDispatchMessages exitType

section
variable {exitType : Int32} {state after : State T D}

theorem plain_append (messages more : List (Posted T D)) : State.plain exitType (messages ++ more) =
    State.plain exitType messages ++ State.plain exitType more :=
  List.filter_append ..

theorem restarts_init (exitType : Int32) : Restarts exitType (State.init : State T D) where
  kept := rfl
  call := by
    intro call none
    contradiction

theorem Restarts.push (inv : Restarts exitType state) (posted : Posted T D)
    (queue : after.eventQueue = state.eventQueue ++ [posted])
    (pushed : after.pushed = state.pushed ++ [posted]) (owner : after.owner = state.owner)
    (dispatched : after.dispatched = state.dispatched) : Restarts exitType after where
  kept := by
    have batch : after.localEventQueue = state.localEventQueue := by
      simp only [State.localEventQueue, owner]
    have kept := inv.kept
    simp only [State.NothingDropped] at kept ⊢
    rw [pushed, dispatched, batch, queue, plain_append, plain_append, kept]
    simp only [List.append_assoc]
  call := by
    rw [owner]
    exact inv.call

theorem Restarts.frame (inv : Restarts exitType state)
    (queued : after.localEventQueue ++ after.eventQueue = state.localEventQueue ++ state.eventQueue)
    (pushed : after.pushed = state.pushed) (dispatched : after.dispatched = state.dispatched)
    (call : ∀ call, after.owner.call? = some call → call = .getAndDispatchMessages exitType) :
    Restarts exitType after where
  kept := by
    have kept := inv.kept
    simp only [State.NothingDropped, List.append_assoc, ← plain_append] at kept ⊢
    rw [pushed, dispatched, queued, kept]
  call := call

theorem Restarts.takeFront (inv : Restarts exitType state) {call : OwnerCall}
    {batch : List (Posted T D)} (dispatching : state.owner = .dispatching call batch)
    (exitsLast : Action.ExitsLast exitType state .takeFront) :
    Restarts exitType (state.takeFront call batch) := by
  have same : call = .getAndDispatchMessages exitType :=
    inv.call call (by rw [dispatching, OwnerState.call?])
  subst same
  have local_ : state.localEventQueue = batch := by
    simp only [State.localEventQueue, dispatching]
  have kept := inv.kept
  simp only [State.NothingDropped, local_] at kept
  cases batch with
  | nil =>
      refine ⟨kept, ?_⟩
      intro call current
      exact (Option.some.inj current).symm
  | cons front rest =>
      cases exit : front.isExit exitType with
      | true =>
          simp only [Action.ExitsLast, local_, exit, true_implies] at exitsLast
          have nothing : State.plain exitType (front :: rest) = [] := by
            simp only [State.plain, List.filter_eq_nil_iff, Bool.not_eq_true, Bool.not_eq_false',
              List.mem_cons]
            rintro posted (rfl | behind)
            · exact exit
            · exact exitsLast posted behind
          rw [nothing] at kept
          rw [takeFront_exit rest exit]
          refine ⟨kept, ?_⟩
          intro call none
          contradiction
      | false =>
          rw [takeFront_handle rest exit]
          refine ⟨?_, ?_⟩
          · have split : front :: rest = [front] ++ rest := rfl
            rw [split, plain_append] at kept
            simp only [State.NothingDropped, State.localEventQueue, plain_append]
            rw [kept]
            simp only [List.append_assoc]
          · intro call current
            exact (Option.some.inj current).symm

end

section
variable [DecidableEq T] {threadId : T} {exitType : Int32}

theorem Restarts.step {state after : State T D} {action : Action T D}
    (inv : Restarts exitType state) (callsLoop : action.CallsLoop exitType)
    (exitsLast : action.ExitsLast exitType state)
    (moved : step threadId state action = some after) : Restarts exitType after := by
  cases step_moved moved with
  | @push thread message may => exact inv.push ⟨thread, message⟩ rfl rfl rfl rfl
  | signal pushed => exact inv.frame rfl rfl rfl inv.call
  | call idle =>
      refine inv.frame ?_ rfl rfl ?_
      · simp only [State.localEventQueue, idle]
      · intro call current
        cases current
        exact callsLoop
  | waitLeft waiting left =>
      have inv' := inv.call
      rw [waiting] at inv'
      exact inv.frame (by simp [State.localEventQueue, waiting]) rfl rfl inv'
  | waitStays waiting stays => exact inv.frame rfl rfl rfl inv.call
  | spuriousWakeup => exact inv.frame rfl rfl rfl inv.call
  | popMessages popping =>
      have inv' := inv.call
      rw [popping] at inv'
      exact inv.frame (by simp [State.localEventQueue, State.popMessages, popping]) rfl rfl inv'
  | takeFront dispatching => exact inv.takeFront dispatching exitsLast
  | handlerReturns handling =>
      have inv' := inv.call
      rw [handling] at inv'
      exact inv.frame (by simp [State.localEventQueue, handling]) rfl rfl inv'

theorem nothing_dropped_across_restarts {state : State T D}
    (reach : Lib.Reachable (step threadId)
      (fun state action => action.CallsLoop exitType ∧ action.ExitsLast exitType state) .init state) :
    state.NothingDropped exitType := by
  have inv := reach.invariant (restarts_init exitType) fun _ _ _ inv allowed moved =>
    inv.step allowed.1 allowed.2 moved
  exact inv.kept

end

instance (exitType : Int32) (action : Action T D) : Decidable (action.CallsLoop exitType) := by
  unfold Action.CallsLoop
  cases action <;> infer_instance

instance (exitType : Int32) (state : State T D) (action : Action T D) :
    Decidable (action.ExitsLast exitType state) := by
  unfold Action.ExitsLast
  cases action <;> try infer_instance
  cases state.localEventQueue <;> infer_instance

def restartedRun : List (Action Bool Unit) :=
  [.push false ⟨100, ()⟩, .signal false, .push false ⟨3, ()⟩,
    .call (.getAndDispatchMessages 3), .wait, .popMessages, .takeFront, .push true ⟨101, ()⟩,
    .signal true, .handlerReturns, .takeFront, .signal false,
    .call (.getAndDispatchMessages 3), .wait, .popMessages, .takeFront]

def LoopKeepsAll (state : State Bool Unit) (action : Action Bool Unit) : Prop :=
  action.CallsLoop 3 ∧ action.ExitsLast 3 state

instance (state : State Bool Unit) (action : Action Bool Unit) :
    Decidable (LoopKeepsAll state action) :=
  inferInstanceAs (Decidable (_ ∧ _))

def restarted : State Bool Unit :=
  Lib.final (step true) LoopKeepsAll .init restartedRun (by decide)

theorem restarted_nothing_dropped : restarted.NothingDropped 3 ∧
    restarted.dispatched = [⟨false, ⟨100, ()⟩⟩, ⟨true, ⟨101, ()⟩⟩] := by
  refine ⟨nothing_dropped_across_restarts (Lib.reachable_final restartedRun (by decide)), ?_⟩
  decide

def stoppedEarlyRun : List (Action Bool Unit) :=
  [.push false ⟨3, ()⟩, .signal false, .push false ⟨100, ()⟩, .signal false,
    .call (.getAndDispatchMessages 3), .wait, .popMessages, .takeFront]

def stoppedEarly : State Bool Unit :=
  Lib.final (step true) (fun _ action => action.CallsLoop 3) .init stoppedEarlyRun (by decide)

theorem message_behind_exit_dropped : ¬ ∀ state : State Bool Unit,
    Lib.Reachable (step true) (fun _ action => action.CallsLoop 3) .init state →
      state.NothingDropped 3 := by
  intro claimed
  have kept := claimed stoppedEarly (Lib.reachable_final stoppedEarlyRun (by decide))
  have lost : ¬ stoppedEarly.NothingDropped 3 := by
    unfold State.NothingDropped
    decide
  exact lost kept

end ThreadIpc.ThreadQueue

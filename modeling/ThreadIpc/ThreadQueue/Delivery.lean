import Mathlib.Data.List.Basic
import ThreadIpc.ThreadQueue.Model

namespace ThreadIpc.ThreadQueue

variable {T D : Type}

def Posted.isExit (exitType : Int32) (posted : Posted T D) : Bool :=
  posted.message.messageType == exitType

def State.bySender [DecidableEq T] (messages : List (Posted T D)) (thread : T) :
    List (Posted T D) :=
  messages.filter fun posted => posted.sender = thread

theorem takeFront_exit {state : State T D} {exitType : Int32} {front : Posted T D}
    (rest : List (Posted T D)) (exit : front.isExit exitType = true) :
    state.takeFront (.getAndDispatchMessages exitType) (front :: rest) =
      { state with owner := .idle, exited := true } := by
  have same : front.message.messageType = exitType := by simpa [Posted.isExit] using exit
  simp [State.takeFront, same]

theorem takeFront_handle {state : State T D} {exitType : Int32} {front : Posted T D}
    (rest : List (Posted T D)) (plain : front.isExit exitType = false) :
    state.takeFront (.getAndDispatchMessages exitType) (front :: rest) =
      { state with
        owner := .handling (.getAndDispatchMessages exitType) rest
        dispatched := state.dispatched ++ [front] } := by
  have other : exitType ≠ front.message.messageType := by
    rintro rfl
    simp [Posted.isExit] at plain
  simp [State.takeFront, other]

theorem takeWhile_append_of_mem {α : Type} (p : α → Bool) (xs ys : List α)
    (stops : ∃ x ∈ xs, p x = false) : (xs ++ ys).takeWhile p = xs.takeWhile p := by
  induction xs with
  | nil => simp at stops
  | cons x xs ih =>
      cases holds : p x with
      | false => simp [holds]
      | true =>
          have later : ∃ x ∈ xs, p x = false := by simpa [holds] using stops
          simp only [List.cons_append, List.takeWhile_cons, holds, if_true, ih later]

structure Ordered (exitType : Int32) (state : State T D) : Prop where
  running : state.exited = false →
    state.dispatched ++ state.localEventQueue ++ state.eventQueue = state.pushed ∧
      ∀ posted ∈ state.dispatched, posted.isExit exitType = false
  left : state.exited = true →
    state.dispatched = state.pushed.takeWhile (fun posted => !posted.isExit exitType) ∧
      ∃ posted ∈ state.pushed, posted.isExit exitType = true
  call : state.owner.call? =
    if state.exited then none else some (.getAndDispatchMessages exitType)

theorem Ordered.push {exitType : Int32} {state after : State T D} (posted : Posted T D)
    (inv : Ordered exitType state) (queue : after.eventQueue = state.eventQueue ++ [posted])
    (pushed : after.pushed = state.pushed ++ [posted]) (owner : after.owner = state.owner)
    (dispatched : after.dispatched = state.dispatched) (exited : after.exited = state.exited) :
    Ordered exitType after where
  running := by
    intro running
    obtain ⟨order, plain⟩ := inv.running (exited ▸ running)
    have batch : after.localEventQueue = state.localEventQueue := by
      simp only [State.localEventQueue, owner]
    refine ⟨?_, dispatched ▸ plain⟩
    rw [dispatched, batch, queue, pushed, ← order]
    simp only [List.append_assoc]
  left := by
    intro left
    obtain ⟨taken, exit, member, isExit⟩ := inv.left (exited ▸ left)
    refine ⟨?_, exit, by simp [pushed, member], isExit⟩
    rw [dispatched, taken, pushed]
    exact (takeWhile_append_of_mem _ _ _ ⟨exit, member, by simp [isExit]⟩).symm
  call := by
    rw [owner, exited]
    exact inv.call

theorem Ordered.frame {exitType : Int32} {state after : State T D} (inv : Ordered exitType state)
    (queued : after.localEventQueue ++ after.eventQueue = state.localEventQueue ++ state.eventQueue)
    (pushed : after.pushed = state.pushed) (dispatched : after.dispatched = state.dispatched)
    (exited : after.exited = state.exited) (call : after.owner.call? = state.owner.call?) :
    Ordered exitType after where
  running := by
    intro running
    obtain ⟨order, plain⟩ := inv.running (exited ▸ running)
    rw [List.append_assoc] at order
    rw [dispatched, List.append_assoc, queued, pushed]
    exact ⟨order, plain⟩
  left := by
    rw [exited, dispatched, pushed]
    exact inv.left
  call := by
    rw [call, exited]
    exact inv.call

theorem Ordered.takeFront {exitType : Int32} {state : State T D} {call : OwnerCall}
    {batch : List (Posted T D)} (inv : Ordered exitType state)
    (dispatching : state.owner = .dispatching call batch) :
    Ordered exitType (state.takeFront call batch) := by
  have current := inv.call
  rw [dispatching, OwnerState.call?] at current
  have notExited : state.exited = false := by
    cases exited : state.exited <;> simp [exited] at current ⊢
  obtain rfl : call = .getAndDispatchMessages exitType := by simpa [notExited] using current
  obtain ⟨order, plain⟩ := inv.running notExited
  simp only [State.localEventQueue, dispatching] at order
  cases batch with
  | nil =>
      refine ⟨fun _ => ⟨?_, plain⟩, fun left => ?_, ?_⟩
      · simpa [State.takeFront, State.localEventQueue] using order
      · exact absurd (notExited.symm.trans left) (by simp)
      · simp [State.takeFront, OwnerState.call?, notExited]
  | cons front rest =>
      cases exit : front.isExit exitType with
      | true =>
          rw [takeFront_exit rest exit]
          have all : ∀ posted ∈ state.dispatched, (!posted.isExit exitType) = true :=
            fun posted member => by simp [plain posted member]
          refine ⟨fun running => ?_, fun _ => ⟨?_, front, ?_, exit⟩, by simp [OwnerState.call?]⟩
          · simp at running
          · rw [← order, List.append_assoc, List.cons_append, List.takeWhile_append_of_pos all,
              List.takeWhile_cons]
            simp [exit]
          · simp [← order]
      | false =>
          rw [takeFront_handle rest exit]
          refine ⟨fun _ => ⟨?_, ?_⟩, fun left => ?_, by simp [OwnerState.call?, notExited]⟩
          · simpa [State.localEventQueue] using order
          · intro posted member
            rcases List.mem_append.mp member with old | new
            · exact plain posted old
            · rw [List.mem_singleton.mp new]
              exact exit
          · exact absurd (notExited.symm.trans left) (by simp)

theorem Ordered.dispatched_prefix {exitType : Int32} {state : State T D}
    (ordered : Ordered exitType state) : state.dispatched <+: state.pushed := by
  cases exited : state.exited with
  | false =>
      rw [← (ordered.running exited).1, List.append_assoc]
      exact List.prefix_append _ _
  | true =>
      rw [(ordered.left exited).1]
      exact List.takeWhile_prefix _

structure DeliveryInv (exitType : Int32) (state : State T D) : Prop where
  uncalled : state.calls = [] → state.owner = .idle ∧ state.exited = false ∧
    state.dispatched = [] ∧ state.eventQueue = state.pushed
  called : state.calls = [.getAndDispatchMessages exitType] → Ordered exitType state

theorem deliveryInv_init (exitType : Int32) :
    DeliveryInv exitType (State.init : State T D) where
  uncalled := fun _ => ⟨rfl, rfl, rfl, rfl⟩
  called := fun made => by simp [State.init] at made

theorem DeliveryInv.inside {exitType : Int32} {state after : State T D} {call : OwnerCall}
    (inv : DeliveryInv exitType state) (current : state.owner.call? = some call)
    (calls : after.calls = state.calls)
    (ordered : Ordered exitType state → Ordered exitType after) : DeliveryInv exitType after where
  uncalled := by
    intro uncalled
    have idle := (inv.uncalled (calls ▸ uncalled)).1
    simp [idle, OwnerState.call?] at current
  called := fun made => ordered (inv.called (calls ▸ made))

variable [DecidableEq T]

theorem deliveryInv_step {threadId : T} {exitType : Int32} {state after : State T D}
    {action : Action T D} (inv : DeliveryInv exitType state)
    (moved : step threadId state action = some after) : DeliveryInv exitType after := by
  cases step_moved moved with
  | @push thread message may =>
      refine ⟨fun uncalled => ?_, fun made => ?_⟩
      · obtain ⟨idle, notExited, nothing, queue⟩ := inv.uncalled uncalled
        exact ⟨idle, notExited, nothing, by simp [State.push, queue]⟩
      · exact (inv.called made).push ⟨thread, message⟩ rfl rfl rfl rfl rfl
  | signal pushed =>
      exact ⟨inv.uncalled, fun made => (inv.called made).frame rfl rfl rfl rfl rfl⟩
  | @call call idle =>
      refine ⟨fun uncalled => ?_, fun made => ?_⟩
      · simp at uncalled
      · have first : state.calls = [] ∧ call = .getAndDispatchMessages exitType := by
          cases earlier : state.calls <;> simp_all
        obtain ⟨-, notExited, nothing, queue⟩ := inv.uncalled first.1
        refine ⟨fun _ => ?_, fun left => ?_, ?_⟩
        · simp [nothing, queue, State.localEventQueue]
        · exact absurd (notExited.symm.trans left) (by simp)
        · simp [OwnerState.call?, first.2, notExited]
  | @waitLeft call waiting left =>
      have current : state.owner.call? = some call := by simp [waiting, OwnerState.call?]
      exact inv.inside current rfl fun ordered => ordered.frame
        (by simp [State.localEventQueue, waiting]) rfl rfl rfl current.symm
  | waitStays waiting stays =>
      exact ⟨inv.uncalled, fun made => (inv.called made).frame rfl rfl rfl rfl rfl⟩
  | spuriousWakeup => exact ⟨inv.uncalled, fun made => (inv.called made).frame rfl rfl rfl rfl rfl⟩
  | @popMessages call popping =>
      have current : state.owner.call? = some call := by simp [popping, OwnerState.call?]
      exact inv.inside current rfl fun ordered => ordered.frame
        (by simp [State.localEventQueue, State.popMessages, popping]) rfl rfl rfl
        current.symm
  | @takeFront call batch dispatching =>
      have current : state.owner.call? = some call := by simp [dispatching, OwnerState.call?]
      exact inv.inside current (by simp) fun ordered => ordered.takeFront dispatching
  | @handlerReturns call batch handling =>
      have current : state.owner.call? = some call := by simp [handling, OwnerState.call?]
      exact inv.inside current rfl fun ordered => ordered.frame
        (by simp [State.localEventQueue, handling]) rfl rfl rfl current.symm

theorem reached_ordered {threadId : T} {exitType : Int32} {state : State T D}
    (reach : Reached threadId state) (once : state.calls = [.getAndDispatchMessages exitType]) :
    Ordered exitType state :=
  (reach.invariant (deliveryInv_init exitType) fun _ _ _ inv _ moved =>
    deliveryInv_step inv moved).called once

theorem messages_dispatched_in_push_order {threadId : T} {exitType : Int32} {state : State T D}
    (reach : Reached threadId state) (once : state.calls = [.getAndDispatchMessages exitType]) :
    (state.exited = false →
      state.dispatched ++ state.localEventQueue ++ state.eventQueue = state.pushed) ∧
    (∀ thread, State.bySender state.dispatched thread <+: State.bySender state.pushed thread) ∧
    (state.owner = .idle →
      state.dispatched = state.pushed.takeWhile (fun posted => !posted.isExit exitType) ∧
        ∃ posted ∈ state.pushed, posted.isExit exitType = true) := by
  have ordered := reached_ordered reach once
  refine ⟨fun running => (ordered.running running).1, fun thread => ?_, fun idle => ?_⟩
  · exact ordered.dispatched_prefix.filter _
  · have call := ordered.call
    cases exited : state.exited with
    | false => simp [idle, exited, OwnerState.call?] at call
    | true => exact ordered.left exited

def stoppedRun : List (Action Bool Unit) :=
  [.push false ⟨100, ()⟩, .call (.getAndDispatchMessages 3), .signal false, .wait, .popMessages,
    .push false ⟨101, ()⟩, .takeFront, .push true ⟨102, ()⟩, .signal true, .handlerReturns,
    .signal false, .push false ⟨3, ()⟩, .signal false, .takeFront, .wait, .popMessages, .takeFront,
    .handlerReturns, .takeFront, .handlerReturns, .takeFront, .push false ⟨100, ()⟩]

def stopped : State Bool Unit :=
  Lib.final (step true) Lib.anyAction .init stoppedRun (by decide)

theorem stopped_dispatched_in_push_order :
    stopped.dispatched = stopped.pushed.take 3 ∧
      (∀ thread, State.bySender stopped.dispatched thread <+:
        State.bySender stopped.pushed thread) ∧
      stopped.dispatched = stopped.pushed.takeWhile fun posted => !posted.isExit 3 := by
  have reach : Reached true stopped := Lib.reachable_final stoppedRun (by decide)
  have once : stopped.calls = [.getAndDispatchMessages 3] := rfl
  obtain ⟨-, bySender, returned⟩ := messages_dispatched_in_push_order reach once
  exact ⟨by decide, bySender, (returned rfl).1⟩

end ThreadIpc.ThreadQueue

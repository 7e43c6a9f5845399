import ThreadIpc.ThreadQueue.Model

namespace ThreadIpc.ThreadQueue

variable {T D : Type}

structure WakeupInv (threadId : T) (state : State T D) : Prop where
  pending : state.eventQueue ≠ [] →
    state.event.signal_ = true ∨ (∃ thread, state.sender thread = .pushed) ∨
      ∃ call, state.owner = .popping call
  awake : state.event.Awake threadId

theorem wakeupInv_init (threadId : T) : WakeupInv threadId (State.init : State T D) where
  pending := fun nonempty => absurd rfl nonempty
  awake := Event.new_awake threadId

theorem WakeupInv.frame {threadId : T} {state after : State T D} (inv : WakeupInv threadId state)
    (queue : after.eventQueue = state.eventQueue) (event : after.event = state.event)
    (sender : after.sender = state.sender)
    (owner : ∀ call, state.owner = .popping call → ∃ call, after.owner = .popping call) :
    WakeupInv threadId after where
  pending := by
    rw [queue, event, sender]
    intro nonempty
    rcases inv.pending nonempty with signalled | pushed | ⟨call, popping⟩
    · exact .inl signalled
    · exact .inr (.inl pushed)
    · exact .inr (.inr (owner call popping))
  awake := event ▸ inv.awake

variable [DecidableEq T]

theorem wakeupInv_step {threadId : T} {state after : State T D} {action : Action T D}
    (inv : WakeupInv threadId state) (moved : step threadId state action = some after) :
    WakeupInv threadId after := by
  cases step_moved moved with
  | @push thread message may =>
      refine ⟨fun _ => .inr (.inl ⟨thread, ?_⟩), inv.awake⟩
      simp [State.push]
  | signal pushed =>
      exact ⟨fun _ => .inl (Event.signal_signal_ _), Event.signal_awake _ _ inv.awake⟩
  | call idle => exact inv.frame rfl rfl rfl (by simp [idle])
  | @waitLeft call waiting left =>
      exact ⟨fun _ => .inr (.inr ⟨call, rfl⟩), Event.waitTest_awake _ _ _⟩
  | @waitStays call waiting stays =>
      refine ⟨fun nonempty => ?_, Event.waitTest_awake _ _ _⟩
      rcases inv.pending nonempty with signalled | pushed | popping
      · exact .inl ((Event.waitTest_stays stays).trans signalled)
      · exact .inr (.inl pushed)
      · exact .inr (.inr popping)
  | spuriousWakeup => exact ⟨inv.pending, Event.spuriousWakeup_awake _ _ _ inv.awake⟩
  | popMessages popping => exact ⟨fun nonempty => absurd rfl nonempty, inv.awake⟩
  | takeFront dispatching => exact inv.frame (by simp) (by simp) (by simp) (by simp [dispatching])
  | handlerReturns handling => exact inv.frame rfl rfl rfl (by simp [handling])

theorem reached_wakeupInv {threadId : T} {state : State T D} (reach : Reached threadId state) :
    WakeupInv threadId state :=
  reach.invariant (wakeupInv_init threadId) fun _ _ _ inv _ moved => wakeupInv_step inv moved

theorem no_lost_wakeup {threadId : T} {state : State T D} (reach : Reached threadId state) :
    (state.eventQueue ≠ [] → state.event.signal_ = true ∨
      (∃ thread, state.sender thread = .pushed) ∨ ∃ call, state.owner = .popping call) ∧
    (state.event.waiter threadId = .blocked → state.event.signal_ = false) ∧
    ¬ ((∀ thread, state.sender thread = .idle) ∧ (∃ call, state.owner = .waiting call) ∧
      state.event.waiter threadId = .blocked ∧ state.eventQueue ≠ []) := by
  have inv := reached_wakeupInv reach
  refine ⟨inv.pending, inv.awake, ?_⟩
  rintro ⟨idle, ⟨call, waiting⟩, blocked, nonempty⟩
  rcases inv.pending nonempty with signalled | ⟨thread, pushed⟩ | ⟨call, popping⟩
  · rw [inv.awake blocked] at signalled
    contradiction
  · rw [idle thread] at pushed
    contradiction
  · rw [waiting] at popping
    contradiction

def asleepRun : List (Action Bool Unit) :=
  [.call (.getAndDispatchMessages 3), .wait, .spuriousWakeup, .wait, .push false ⟨100, ()⟩]

def asleep : State Bool Unit :=
  Lib.final (step true) Lib.anyAction .init asleepRun (by decide)

theorem asleep_wakeup_pending :
    asleep.event.waiter true = .blocked ∧ asleep.event.signal_ = false ∧
      (asleep.event.signal_ = true ∨ (∃ thread, asleep.sender thread = .pushed) ∨
        ∃ call, asleep.owner = .popping call) := by
  have reach : Reached true asleep := Lib.reachable_final asleepRun (by decide)
  obtain ⟨pending, awake, -⟩ := no_lost_wakeup reach
  exact ⟨rfl, awake rfl, pending (by decide)⟩

end ThreadIpc.ThreadQueue

import ThreadIpc.AsyncRouter.Steps

/-!
# The registry of queues

A queue in use by its own thread, or by a `Send`, is registered: the end hook waits for `queue_mutex_`
and runs only when its thread has left every loop.
-/

namespace ThreadIpc.AsyncRouter
open ThreadQueue

variable {T : Type} [DecidableEq T]

section
variable (state : State T) (thread other : T)

@[simp] theorem frames_setActivity (activity : Activity T) :
    ((state.setActivity thread activity).thread other).frames = (state.thread other).frames := by
  simp only [State.setActivity, Function.update_apply]
  split
  · rename_i same
    rw [same]
  · rfl

@[simp] theorem activity_setActivity (activity : Activity T) :
    ((state.setActivity thread activity).thread other).activity =
      if other = thread then activity else (state.thread other).activity := by
  simp only [State.setActivity, Function.update_apply]
  split <;> rfl

@[simp] theorem frames_setFrames (frames : List Frame) :
    ((state.setFrames thread frames).thread other).frames =
      if other = thread then frames else (state.thread other).frames := by
  simp only [State.setFrames, Function.update_apply]
  split <;> rfl

@[simp] theorem activity_setFrames (frames : List Frame) :
    ((state.setFrames thread frames).thread other).activity = (state.thread other).activity := by
  simp only [State.setFrames, Function.update_apply]
  split
  · rename_i same
    rw [same]
  · rfl

@[simp] theorem queue_setActivity (activity : Activity T) :
    (state.setActivity thread activity).queue = state.queue := rfl

theorem messageQueues_addQueue : (state.addQueue thread).messageQueues =
    Function.update state.messageQueues thread (some state.nextQueue) := rfl

omit [DecidableEq T] in
theorem handled_eq (message : Message) : (state.handled message).thread = state.thread ∧
    (state.handled message).messageQueues = state.messageQueues ∧
    (state.handled message).queue = state.queue ∧
    (state.handled message).queueMutex = state.queueMutex ∧
    (state.handled message).nextQueue = state.nextQueue := by
  unfold State.handled
  split <;> exact ⟨rfl, rfl, rfl, rfl, rfl⟩

end

section
variable {main thread : T} {state after : State T}

theorem UserMoved.frame (moved : UserMoved state thread after) :
    after.queue = state.queue ∧ after.messageQueues = state.messageQueues ∧
      after.nextQueue = state.nextQueue ∧ after.signalled = state.signalled ∧
      (∀ other, (after.thread other).frames = (state.thread other).frames) ∧
      ∀ other, other ≠ thread →
        (after.thread other).activity = (state.thread other).activity := by
  cases moved with
  | initialized => exact ⟨rfl, rfl, rfl, rfl, fun _ => rfl, fun _ _ => rfl⟩
  | _ =>
      refine ⟨rfl, rfl, rfl, rfl, fun other => frames_setActivity _ _ other _, ?_⟩
      intro other different
      exact (activity_setActivity ..).trans (if_neg different)

end

structure Registered (state : State T) : Prop where
  bounded : ∀ thread queue, state.messageQueues thread = some queue → queue < state.nextQueue
  injective : ∀ thread other queue, state.messageQueues thread = some queue →
    state.messageQueues other = some queue → thread = other
  framed : ∀ thread, ∀ frame ∈ (state.thread thread).frames,
    state.messageQueues thread = some frame.queue
  holds : ∀ thread target message stage,
    (state.thread thread).activity = .send target message stage → stage ≠ .find →
      state.queueMutex = some thread
  sending : ∀ thread target message queue,
    (state.thread thread).activity = .send target message (.push queue) →
      state.messageQueues target = some queue

omit [DecidableEq T] in
theorem registered_init : Registered (.init : State T) where
  bounded _ _ registered := by contradiction
  injective _ _ _ registered := by contradiction
  framed _ _ member := absurd member List.not_mem_nil
  holds _ _ _ _ sending := by contradiction
  sending _ _ _ _ sending := by contradiction

section
variable {main thread : T} {state after : State T}

theorem Registered.user_holds (inv : Registered state) (moved : UserMoved state thread after)
    (other target : T) (message : Message) (stage : Stage)
    (sending : (after.thread other).activity = .send target message stage)
    (started : stage ≠ .find) : after.queueMutex = some other := by
  obtain ⟨_, _, _, _, _, others⟩ := moved.frame
  by_cases same : other = thread
  · subst same
    cases moved with
    | initialized => exact inv.holds other target message stage sending started
    | found unlocked found registered => rfl
    | @unlock _ message' sending' =>
        simp only [activity_setActivity, if_true] at sending
        split at sending <;> contradiction
    | _ =>
        simp at sending
        try exact absurd sending.2.2.symm started
  · rw [others other same] at sending
    have held := inv.holds other target message stage sending started
    cases moved with
    | found unlocked found registered => exact absurd (unlocked.symm.trans held) (by simp)
    | unlock sending' =>
        have mine := inv.holds _ _ _ _ sending' (by simp)
        exact absurd (Option.some.inj (mine.symm.trans held)).symm same
    | _ => exact held

theorem Registered.user_sending (inv : Registered state) (moved : UserMoved state thread after)
    (other target : T) (message : Message) (queue : Nat)
    (sending : (after.thread other).activity = .send target message (.push queue)) :
    after.messageQueues target = some queue := by
  obtain ⟨_, queues, _, _, _, others⟩ := moved.frame
  rw [queues]
  by_cases same : other = thread
  · subst same
    cases moved with
    | initialized => exact inv.sending other target message queue sending
    | found unlocked found registered =>
        simp only [activity_setActivity, if_true, Activity.send.injEq, Stage.push.injEq] at sending
        obtain ⟨rfl, _, rfl⟩ := sending
        exact registered
    | @unlock _ message' sending' =>
        simp only [activity_setActivity, if_true] at sending
        split at sending <;> contradiction
    | _ => simp at sending
  · rw [others other same] at sending
    exact inv.sending other target message queue sending

theorem Registered.user (inv : Registered state) (moved : UserMoved state thread after) :
    Registered after := by
  obtain ⟨_, queues, next, _, frames, _⟩ := moved.frame
  refine ⟨?_, ?_, ?_, inv.user_holds moved, inv.user_sending moved⟩
  · rw [queues, next]
    exact inv.bounded
  · rw [queues]
    exact inv.injective
  · intro other frame member
    rw [frames] at member
    rw [queues]
    exact inv.framed other frame member

omit [DecidableEq T] in
theorem Registered.keeps (inv : Registered state) (queues : after.messageQueues = state.messageQueues)
    (next : after.nextQueue = state.nextQueue) (mutex : after.queueMutex = state.queueMutex)
    (framed : ∀ other, ∀ frame ∈ (after.thread other).frames,
      state.messageQueues other = some frame.queue)
    (sends : ∀ other target message stage,
      (after.thread other).activity = .send target message stage → stage ≠ .find →
        ∃ stage', (state.thread other).activity = .send target message stage' ∧ stage' ≠ .find)
    (pushes : ∀ other target message queue,
      (after.thread other).activity = .send target message (.push queue) →
        (state.thread other).activity = .send target message (.push queue)) :
    Registered after where
  bounded := by
    rw [queues, next]
    exact inv.bounded
  injective := by
    rw [queues]
    exact inv.injective
  framed := by
    rw [queues]
    exact framed
  holds := by
    intro other target message stage sending started
    obtain ⟨stage', earlier, started'⟩ := sends other target message stage sending started
    rw [mutex]
    exact inv.holds other target message stage' earlier started'
  sending := by
    intro other target message queue sending
    rw [queues]
    exact inv.sending other target message queue (pushes other target message queue sending)

theorem Registered.addQueue (inv : Registered state) (missing : state.messageQueues thread = none) :
    Registered (state.addQueue thread) := by
  have fresh (other : T) (queue : Nat)
      (registered : (state.addQueue thread).messageQueues other = some queue) :
      (other = thread ∧ queue = state.nextQueue) ∨
        (other ≠ thread ∧ state.messageQueues other = some queue) := by
    by_cases same : other = thread
    · rw [same, messageQueues_addQueue, Function.update_self] at registered
      exact .inl ⟨same, (Option.some.inj registered).symm⟩
    · rw [messageQueues_addQueue, Function.update_of_ne same] at registered
      exact .inr ⟨same, registered⟩
  have kept (other : T) (queue : Nat) (registered : state.messageQueues other = some queue) :
      (state.addQueue thread).messageQueues other = some queue := by
    have different : other ≠ thread := by
      rintro rfl
      rw [missing] at registered
      contradiction
    exact (Function.update_of_ne different ..).trans registered
  refine ⟨?_, ?_, ?_, inv.holds, ?_⟩
  · intro other queue registered
    rcases fresh other queue registered with ⟨_, rfl⟩ | ⟨_, earlier⟩
    · exact Nat.lt_succ_self _
    · exact Nat.lt_succ_of_lt (inv.bounded other queue earlier)
  · intro other other' queue registered registered'
    rcases fresh other queue registered with ⟨rfl, rfl⟩ | ⟨_, earlier⟩
    · rcases fresh other' _ registered' with ⟨rfl, _⟩ | ⟨_, earlier'⟩
      · rfl
      · exact absurd (inv.bounded other' _ earlier') (Nat.lt_irrefl _)
    · rcases fresh other' queue registered' with ⟨_, rfl⟩ | ⟨_, earlier'⟩
      · exact absurd (inv.bounded other _ earlier) (Nat.lt_irrefl _)
      · exact inv.injective other other' queue earlier earlier'
  · intro other frame member
    exact kept other frame.queue (inv.framed other frame member)
  · intro other target message queue sending
    exact kept target queue (inv.sending other target message queue sending)

theorem Registered.ended (inv : Registered state) (finished : state.thread thread = ⟨[], .free⟩)
    (unlocked : state.queueMutex = none) : Registered
      { state with messageQueues := Function.update state.messageQueues thread none } := by
  have earlier (other : T) (queue : Nat)
      (registered : Function.update state.messageQueues thread none other = some queue) :
      state.messageQueues other = some queue := by
    by_cases same : other = thread
    · rw [same, Function.update_self] at registered
      contradiction
    · rwa [Function.update_of_ne same] at registered
  refine ⟨?_, ?_, ?_, inv.holds, ?_⟩
  · exact fun other queue registered => inv.bounded other queue (earlier other queue registered)
  · intro other other' queue registered registered'
    exact inv.injective other other' queue (earlier other queue registered)
      (earlier other' queue registered')
  · intro other frame member
    have different : other ≠ thread := by
      rintro rfl
      rw [finished] at member
      contradiction
    exact (Function.update_of_ne different ..).trans (inv.framed other frame member)
  · intro other target message queue sending
    have held := inv.holds other target message _ sending (by simp)
    rw [unlocked] at held
    contradiction

theorem Registered.goesOn (inv : Registered state) {before : State T} {frames : List Frame}
    (sameThread : before.thread = state.thread)
    (sameQueues : before.messageQueues = state.messageQueues)
    (sameNext : before.nextQueue = state.nextQueue)
    (sameMutex : before.queueMutex = state.queueMutex)
    (framed : ∀ frame ∈ frames, state.messageQueues thread = some frame.queue) :
    Registered (before.setFrames thread frames) := by
  refine inv.keeps ?_ ?_ ?_ ?_ ?_ ?_
  · exact sameQueues
  · exact sameNext
  · exact sameMutex
  · intro other frame member
    rw [frames_setFrames] at member
    split at member
    · rename_i same
      exact same ▸ framed frame member
    · rw [sameThread] at member
      exact inv.framed other frame member
  · intro other target message stage sending started
    rw [activity_setFrames, sameThread] at sending
    exact ⟨stage, sending, started⟩
  · intro other target message queue sending
    rwa [activity_setFrames, sameThread] at sending

theorem Registered.sends (inv : Registered state) {before : State T} {activity : Activity T}
    (sameThread : before.thread = state.thread)
    (sameQueues : before.messageQueues = state.messageQueues)
    (sameNext : before.nextQueue = state.nextQueue)
    (sameMutex : before.queueMutex = state.queueMutex)
    (goesOn : ∀ target message stage, activity = .send target message stage →
      (∀ queue, stage ≠ .push queue) ∧
        ∃ stage', (state.thread thread).activity = .send target message stage' ∧ stage' ≠ .find) :
    Registered (before.setActivity thread activity) := by
  refine inv.keeps ?_ ?_ ?_ ?_ ?_ ?_
  · exact sameQueues
  · exact sameNext
  · exact sameMutex
  · intro other frame member
    rw [frames_setActivity, sameThread] at member
    exact inv.framed other frame member
  · intro other target message stage sending started
    rw [activity_setActivity, sameThread] at sending
    split at sending
    · rename_i same
      exact same ▸ (goesOn target message stage sending).2
    · exact ⟨stage, sending, started⟩
  · intro other target message queue sending
    rw [activity_setActivity, sameThread] at sending
    split at sending
    · exact absurd rfl ((goesOn target message _ sending).1 queue)
    · exact sending

theorem takeFront_frames (state : State T) (thread : T) (frame : Frame) (outer : List Frame)
    (batch : List Message) : ∃ frames,
      takeFront state thread frame outer batch = state.setFrames thread frames ∧
        ∀ other ∈ frames, other.queue = frame.queue ∨ other ∈ outer := by
  have again (phase : Phase) : ∀ other ∈ ({ frame with phase } : Frame) :: outer,
      other.queue = frame.queue ∨ other ∈ outer := by
    intro other member
    rcases List.mem_cons.mp member with rfl | member
    · exact .inl rfl
    · exact .inr member
  unfold takeFront
  split
  · split
    · exact ⟨outer, rfl, fun _ => .inr⟩
    · exact ⟨_, rfl, again _⟩
  · split
    · exact ⟨outer, rfl, fun _ => .inr⟩
    · exact ⟨_, rfl, again _⟩

theorem Registered.step (inv : Registered state) {action : Action T}
    (moved : Moved main state thread action after) : Registered after := by
  have again {frame : Frame} {outer : List Frame}
      (frames : (state.thread thread).frames = frame :: outer) (other : Frame)
      (member : other.queue = frame.queue ∨ other ∈ outer) :
      state.messageQueues thread = some other.queue := by
    rcases member with same | member
    · exact same ▸ inv.framed thread frame (frames ▸ List.mem_cons_self)
    · exact inv.framed thread other (frames ▸ List.mem_cons_of_mem _ member)
  have samePlace {frame : Frame} {outer : List Frame}
      (frames : (state.thread thread).frames = frame :: outer) (phase : Phase) :
      ∀ other ∈ ({ frame with phase } : Frame) :: outer,
        state.messageQueues thread = some other.queue := by
    intro other member
    apply again frames other
    rcases List.mem_cons.mp member with rfl | member
    · exact .inl rfl
    · exact .inr member
  cases moved with
  | user moved => exact inv.user moved
  | addQueue user unlocked missing => exact inv.addQueue missing
  | @entered call queue entering registered =>
      have free : Registered (state.setActivity thread .free) :=
        inv.sends rfl rfl rfl rfl (by simp)
      refine free.goesOn rfl rfl rfl rfl ?_
      intro frame member
      rcases List.mem_cons.mp member with rfl | member
      · exact registered
      · exact inv.framed thread frame member
  | pushed sending =>
      refine inv.sends rfl rfl rfl rfl ?_
      rintro target message stage ⟨⟩
      exact ⟨by simp, _, sending, by simp⟩
  | pushedExit stopping => exact inv.sends rfl rfl rfl rfl (by simp)
  | signalled sending =>
      refine inv.sends rfl rfl rfl rfl ?_
      rintro target message stage ⟨⟩
      exact ⟨by simp, _, sending, by simp⟩
  | signalledExit stopping => exact inv.sends rfl rfl rfl rfl (by simp)
  | ended finished notMain unlocked => exact inv.ended finished unlocked
  | waitLeft frames waiting => exact inv.goesOn rfl rfl rfl rfl (samePlace frames _)
  | waitStays frames => exact ⟨inv.bounded, inv.injective, inv.framed, inv.holds, inv.sending⟩
  | popMessages frames popping => exact inv.goesOn rfl rfl rfl rfl (samePlace frames _)
  | @takeFront frame outer batch frames dispatching =>
      obtain ⟨next, equal, members⟩ := takeFront_frames state thread frame outer batch
      rw [equal]
      exact inv.goesOn rfl rfl rfl rfl fun other member => again frames other (members other member)
  | @handlerReturns frame outer message batch frames handling free =>
      obtain ⟨sameThread, sameQueues, _, sameMutex, sameNext⟩ := handled_eq state message
      exact inv.goesOn sameThread sameQueues sameNext sameMutex (samePlace frames _)

end

theorem registered_reached {main : T} {ok : State T → T × Action T → Prop} (state : State T)
    (reach : Lib.Reachable (step main) ok .init state) : Registered state :=
  reach.invariant registered_init fun _ _ _ inv _ moved => inv.step (step_moved moved)

end ThreadIpc.AsyncRouter

import ThreadIpc.AsyncRouter.Model

/-!
# What one step of a thread does

`UserMoved` are the steps that leave every queue and every frame alone.
-/

namespace ThreadIpc.AsyncRouter
open ThreadQueue

variable {T : Type} [DecidableEq T]

inductive UserMoved (state : State T) (thread : T) : State T → Prop
  | initialized : UserMoved state thread state
  | send {target message} (user : state.runsUserCode thread = true)
      (plain : message.messageData = none) :
      UserMoved state thread (state.setActivity thread (.send target message .find))
  | callSync {target} (user : state.runsUserCode thread = true) :
      UserMoved state thread { state.setActivity thread
        (.send target (functorMessage state.nextCall) .find) with nextCall := state.nextCall + 1 }
  | stop {target} (user : state.runsUserCode thread = true) :
      UserMoved state thread
        (state.setActivity thread (.stop target (state.isLooping target) .find))
  | enter {call} (user : state.runsUserCode thread = true) :
      UserMoved state thread (state.setActivity thread (.enter call))
  | unsent {target message} (unlocked : state.queueMutex = none)
      (sending : (state.thread thread).activity = .send target message .find)
      (missing : state.messageQueues target = none) :
      UserMoved state thread (state.setActivity thread .free)
  | found {target message queue} (unlocked : state.queueMutex = none)
      (sending : (state.thread thread).activity = .send target message .find)
      (registered : state.messageQueues target = some queue) :
      UserMoved state thread { state.setActivity thread (.send target message (.push queue)) with
        queueMutex := some thread }
  | missed {target looping} (unlocked : state.queueMutex = none)
      (stopping : (state.thread thread).activity = .stop target looping .find)
      (missing : state.messageQueues target = none) :
      UserMoved state thread (state.setActivity thread (.failed looping))
  | got {target looping queue} (unlocked : state.queueMutex = none)
      (stopping : (state.thread thread).activity = .stop target looping .find)
      (registered : state.messageQueues target = some queue) :
      UserMoved state thread (state.setActivity thread (.stop target looping (.push queue)))
  | lost {call} (entering : (state.thread thread).activity = .enter call)
      (missing : state.messageQueues thread = none) :
      UserMoved state thread (state.setActivity thread (.failed false))
  | unlock {target message}
      (sending : (state.thread thread).activity = .send target message .unlock) :
      UserMoved state thread { state.setActivity thread
        (match message.messageData with
          | some call => .await target call
          | none => .free) with queueMutex := none }
  | awaken {target call} (awaiting : (state.thread thread).activity = .await target call)
      (signalled : state.signalled call = true) :
      UserMoved state thread (state.setActivity thread .free)

inductive Moved (main : T) (state : State T) (thread : T) : Action T → State T → Prop
  | user {action after} (moved : UserMoved state thread after) : Moved main state thread action after
  | addQueue (user : state.runsUserCode thread = true) (unlocked : state.queueMutex = none)
      (missing : state.messageQueues thread = none) :
      Moved main state thread .initThreadMessageQueue (state.addQueue thread)
  | entered {call queue} (entering : (state.thread thread).activity = .enter call)
      (registered : state.messageQueues thread = some queue) :
      Moved main state thread .lookUp ((state.setActivity thread .free).setFrames thread
        (⟨call, queue, .waiting⟩ :: (state.thread thread).frames))
  | pushed {target message queue}
      (sending : (state.thread thread).activity = .send target message (.push queue)) :
      Moved main state thread .push ((state.pushMessage queue message).setActivity thread
        (.send target message (.signal queue)))
  | pushedExit {target looping queue}
      (stopping : (state.thread thread).activity = .stop target looping (.push queue)) :
      Moved main state thread .push ((state.pushMessage queue exitMessage).setActivity thread
        (.stop target looping (.signal queue)))
  | signalled {target message queue}
      (sending : (state.thread thread).activity = .send target message (.signal queue)) :
      Moved main state thread .signal ((state.signalQueue queue).setActivity thread
        (.send target message .unlock))
  | signalledExit {target looping queue}
      (stopping : (state.thread thread).activity = .stop target looping (.signal queue)) :
      Moved main state thread .signal ((state.signalQueue queue).setActivity thread .free)
  | ended (finished : state.thread thread = ⟨[], .free⟩) (notMain : thread ≠ main)
      (unlocked : state.queueMutex = none) :
      Moved main state thread .threadEndHook
        { state with messageQueues := Function.update state.messageQueues thread none }
  | waitLeft {frame outer event} (frames : (state.thread thread).frames = frame :: outer)
      (waiting : frame.phase = .waiting) :
      Moved main state thread .wait
        ((state.setQueue frame.queue { state.queue frame.queue with event }).setFrames thread
          ({ frame with phase := .popping } :: outer))
  | waitStays {action frame outer event} (frames : (state.thread thread).frames = frame :: outer) :
      Moved main state thread action
        (state.setQueue frame.queue { state.queue frame.queue with event })
  | popMessages {frame outer} (frames : (state.thread thread).frames = frame :: outer)
      (popping : frame.phase = .popping) :
      Moved main state thread .popMessages
        ((state.setQueue frame.queue { state.queue frame.queue with eventQueue := [] }).setFrames
          thread ({ frame with
            phase := .dispatching (state.queue frame.queue).eventQueue } :: outer))
  | takeFront {frame outer batch} (frames : (state.thread thread).frames = frame :: outer)
      (dispatching : frame.phase = .dispatching batch) :
      Moved main state thread .takeFront (takeFront state thread frame outer batch)
  | handlerReturns {frame outer message batch}
      (frames : (state.thread thread).frames = frame :: outer)
      (handling : frame.phase = .handling message batch)
      (free : (state.thread thread).activity = .free) :
      Moved main state thread .handlerReturns ((state.handled message).setFrames thread
        ({ frame with phase := .dispatching batch } :: outer))

theorem lookUp_moved {main thread : T} {state after : State T}
    (moved : lookUp state thread = some after) : Moved main state thread .lookUp after := by
  rw [lookUp] at moved
  split at moved
  · contradiction
  rename_i mutex
  have unlocked : state.queueMutex = none := not_not.mp mutex
  split at moved
  · rename_i target message sending
    split at moved
    · rename_i missing
      cases moved
      exact .user (.unsent unlocked sending missing)
    · rename_i queue registered
      cases moved
      exact .user (.found unlocked sending registered)
  · rename_i target looping stopping
    split at moved
    · rename_i missing
      cases moved
      exact .user (.missed unlocked stopping missing)
    · rename_i queue registered
      cases moved
      exact .user (.got unlocked stopping registered)
  · rename_i call entering
    split at moved
    · rename_i missing
      cases moved
      exact .user (.lost entering missing)
    · rename_i queue registered
      cases moved
      exact .entered entering registered
  · contradiction

theorem push_moved {main thread : T} {state after : State T}
    (moved : sendMessage state thread .push = some after) :
    Moved main state thread .push after := by
  simp only [sendMessage] at moved
  split at moved
  · rename_i target message queue sending
    cases moved
    exact .pushed sending
  · rename_i target looping queue stopping
    cases moved
    exact .pushedExit stopping
  · contradiction

theorem signal_moved {main thread : T} {state after : State T}
    (moved : sendMessage state thread .signal = some after) :
    Moved main state thread .signal after := by
  simp only [sendMessage] at moved
  split at moved
  · rename_i target message queue sending
    cases moved
    exact .signalled sending
  · rename_i target looping queue stopping
    cases moved
    exact .signalledExit stopping
  · contradiction

theorem loopStep_moved {main thread : T} {state after : State T} {action : Action T}
    {frame : Frame} {outer : List Frame} (frames : (state.thread thread).frames = frame :: outer)
    (moved : loopStep state thread action frame outer = some after) :
    Moved main state thread action after := by
  unfold loopStep at moved
  split at moved
  · rename_i waiting
    simp only at moved
    split at moved
    · contradiction
    · split at moved
      · cases moved
        exact .waitLeft frames waiting
      · cases moved
        exact .waitStays frames
  · cases moved
    exact .waitStays frames
  · rename_i popping
    cases moved
    exact .popMessages frames popping
  · rename_i batch dispatching
    cases moved
    exact .takeFront frames dispatching
  · rename_i message batch handling
    split at moved
    · rename_i free
      cases moved
      exact .handlerReturns frames handling free
    · contradiction
  · contradiction

theorem step_moved {main thread : T} {state after : State T} {action : Action T}
    (moved : step main state (thread, action) = some after) :
    Moved main state thread action after := by
  cases action with
  | initThreadMessageQueue =>
      simp only [step, Option.ite_none_right_eq_some] at moved
      obtain ⟨⟨user, unlocked⟩, moved⟩ := moved
      split at moved
      · cases moved
        exact .user .initialized
      · rename_i missing
        cases moved
        exact .addQueue user unlocked missing
  | send target messageType =>
      simp only [step, Option.ite_none_right_eq_some, Option.some.injEq] at moved
      exact moved.2 ▸ .user (.send moved.1.1 rfl)
  | callSync target =>
      simp only [step, Option.ite_none_right_eq_some, Option.some.injEq] at moved
      exact moved.2 ▸ .user (.callSync moved.1)
  | stop target =>
      simp only [step, Option.ite_none_right_eq_some, Option.some.injEq] at moved
      exact moved.2 ▸ .user (.stop moved.1)
  | enter call =>
      simp only [step, Option.ite_none_right_eq_some, Option.some.injEq] at moved
      exact moved.2 ▸ .user (.enter moved.1.1)
  | lookUp => exact lookUp_moved moved
  | push => exact push_moved moved
  | signal => exact signal_moved moved
  | unlock =>
      simp only [step] at moved
      split at moved
      · rename_i sending
        cases moved
        exact .user (.unlock sending)
      · contradiction
  | awaken =>
      simp only [step] at moved
      split at moved
      · rename_i awaiting
        simp only [Option.ite_none_right_eq_some, Option.some.injEq] at moved
        exact moved.2 ▸ .user (.awaken awaiting moved.1)
      · contradiction
  | threadEndHook =>
      simp only [step, Option.ite_none_right_eq_some, Option.some.injEq] at moved
      obtain ⟨⟨finished, notMain, unlocked⟩, rfl⟩ := moved
      exact .ended finished notMain unlocked
  | wait | spuriousWakeup | popMessages | takeFront | handlerReturns =>
      simp only [step] at moved
      split at moved
      · contradiction
      · rename_i frame outer frames
        exact loopStep_moved frames moved

end ThreadIpc.AsyncRouter

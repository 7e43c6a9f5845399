import ThreadIpc.AsyncRouter.Registry

/-!
# Callers that wait for their functor

The functor of a waiting caller moves from the event queue to the batch of a loop, is run, and the
caller is signalled. It is lost when the batch or the queue is destroyed before that.
-/

namespace ThreadIpc.AsyncRouter
open ThreadQueue

variable {T : Type}

/-- A loop stops at the message that is its exit type and destroys the rest of the batch. -/
def Frame.passes (frame : Frame) (message : Message) : Bool :=
  frame.call ≠ .getAndDispatchMessages message.messageType

def Frame.willDispatch (frame : Frame) : List Message :=
  match frame.phase with
  | .dispatching batch | .handling _ batch => batch.takeWhile frame.passes
  | _ => []

def Frame.running? (frame : Frame) : Option Message :=
  match frame.phase with
  | .handling message _ => some message
  | _ => none

/-- Where the functor of a caller may be that waits for its handled event. -/
inductive Accounted (state : State T) (target : T) (call : Nat) : Prop
  | queued {queue} (registered : state.messageQueues target = some queue)
      (member : functorMessage call ∈ (state.queue queue).eventQueue)
  | batched {frame} (inLoop : frame ∈ (state.thread target).frames)
      (member : functorMessage call ∈ frame.willDispatch)
  | running {frame} (inLoop : frame ∈ (state.thread target).frames)
      (runs : frame.running? = some (functorMessage call))
  | signalled (done : state.signalled call = true)

def NeverOrphaned (state : State T) : Prop :=
  ∀ caller target call, (state.thread caller).activity = .await target call →
    Accounted state target call

def noFunctor (messages : List Message) : Bool :=
  messages.all fun message => message.messageData = none

/-- No loop pops a sync functor behind its exit message, and no thread ends with one in its queue. -/
def functorsReached (state : State T) (move : T × Action T) : Bool :=
  match move.2 with
  | .popMessages => match (state.thread move.1).frames with
      | [] => true
      | frame :: _ => noFunctor ((state.queue frame.queue).eventQueue.dropWhile frame.passes)
  | .threadEndHook => match state.messageQueues move.1 with
      | none => true
      | some queue => noFunctor (state.queue queue).eventQueue
  | _ => true

theorem functor_notMem {messages : List Message} (none : noFunctor messages = true) (call : Nat) :
    functorMessage call ∉ messages := by
  intro member
  have plain := List.all_eq_true.mp none _ member
  simp [functorMessage] at plain

section
variable {state after : State T} {target : T} {call : Nat}

theorem Accounted.congr (accounted : Accounted state target call)
    (queues : after.messageQueues = state.messageQueues)
    (contents : ∀ queue message, message ∈ (state.queue queue).eventQueue →
      message ∈ (after.queue queue).eventQueue)
    (frames : ∀ frame ∈ (state.thread target).frames, frame ∈ (after.thread target).frames)
    (signals : state.signalled call = true → after.signalled call = true) :
    Accounted after target call := by
  cases accounted with
  | queued registered member =>
      exact .queued (queues ▸ registered) (contents _ _ member)
  | batched inLoop member => exact .batched (frames _ inLoop) member
  | running inLoop runs => exact .running (frames _ inLoop) runs
  | signalled done => exact .signalled (signals done)

variable [DecidableEq T] {thread : T}

theorem Accounted.user (accounted : Accounted state target call)
    (moved : UserMoved state thread after) : Accounted after target call := by
  obtain ⟨contents, queues, _, signals, frames, _⟩ := moved.frame
  apply accounted.congr queues
  · rw [contents]
    exact fun _ _ => id
  · rw [frames]
    exact fun _ => id
  · rw [signals]
    exact id

omit [DecidableEq T] in
theorem eventQueue_setQueue (state : State T) (queue other : Nat) (content : Queue T) :
    ((state.setQueue queue content).queue other).eventQueue =
      if other = queue then content.eventQueue else (state.queue other).eventQueue := by
  simp only [State.setQueue, Function.update_apply]
  split <;> rfl

omit [DecidableEq T] in
theorem Accounted.setQueue (accounted : Accounted state target call) {queue : Nat}
    {content : Queue T}
    (contents : ∀ message ∈ (state.queue queue).eventQueue, message ∈ content.eventQueue) :
    Accounted (state.setQueue queue content) target call := by
  refine accounted.congr rfl ?_ (fun _ => id) id
  intro other message member
  rw [eventQueue_setQueue]
  split
  · rename_i same
    exact contents message (same ▸ member)
  · exact member

theorem Accounted.setActivity (accounted : Accounted state target call) (activity : Activity T) :
    Accounted (state.setActivity thread activity) target call :=
  accounted.congr rfl (fun _ _ => id) (fun _ member => by rwa [frames_setActivity]) id

theorem Accounted.enter (accounted : Accounted state target call) (frame : Frame) :
    Accounted (state.setFrames thread (frame :: (state.thread thread).frames)) target call := by
  refine accounted.congr rfl (fun _ _ => id) ?_ id
  intro old member
  rw [frames_setFrames]
  split
  · rename_i same
    exact List.mem_cons_of_mem _ (same ▸ member)
  · exact member

theorem Accounted.addQueue (accounted : Accounted state target call) (inv : Registered state)
    (missing : state.messageQueues thread = none) :
    Accounted (state.addQueue thread) target call := by
  cases accounted with
  | @queued queue registered member =>
      have different : target ≠ thread := by
        rintro rfl
        rw [missing] at registered
        contradiction
      have old : queue ≠ state.nextQueue := Nat.ne_of_lt (inv.bounded target queue registered)
      refine .queued ((Function.update_of_ne different ..).trans registered) ?_
      show functorMessage call ∈ ((state.setQueue state.nextQueue _).queue queue).eventQueue
      rw [eventQueue_setQueue, if_neg old]
      exact member
  | batched inLoop member => exact .batched inLoop member
  | running inLoop runs => exact .running inLoop runs
  | signalled done => exact .signalled done

theorem Accounted.goesOn (accounted : Accounted state target call) {before : State T}
    {frame : Frame} {outer frames : List Frame}
    (innermost : (state.thread thread).frames = frame :: outer)
    (sameThread : before.thread = state.thread)
    (sameQueues : before.messageQueues = state.messageQueues)
    (signals : ∀ call, state.signalled call = true → before.signalled call = true)
    (contents : ∀ queue, state.messageQueues target = some queue →
      functorMessage call ∈ (state.queue queue).eventQueue →
        functorMessage call ∈ (before.queue queue).eventQueue ∨
          target = thread ∧ ∃ other ∈ frames, functorMessage call ∈ other.willDispatch)
    (batch : functorMessage call ∈ frame.willDispatch →
      ∃ other ∈ frames, functorMessage call ∈ other.willDispatch ∨
        other.running? = some (functorMessage call))
    (runs : frame.running? = some (functorMessage call) → before.signalled call = true)
    (outermost : ∀ other ∈ outer, other ∈ frames) :
    Accounted (before.setFrames thread frames) target call := by
  have mine {other : Frame} (member : other ∈ frames) :
      other ∈ ((before.setFrames thread frames).thread thread).frames := by
    rwa [frames_setFrames, if_pos rfl]
  have theirs (different : target ≠ thread) :
      ((before.setFrames thread frames).thread target).frames = (state.thread target).frames := by
    rw [frames_setFrames, if_neg different, sameThread]
  cases accounted with
  | @queued queue registered member =>
      rcases contents queue registered member with stays | ⟨rfl, other, inFrames, taken⟩
      · exact .queued (sameQueues.symm ▸ registered) stays
      · exact .batched (mine inFrames) taken
  | @batched old inLoop member =>
      by_cases same : target = thread
      · subst same
        rw [innermost] at inLoop
        rcases List.mem_cons.mp inLoop with rfl | inOuter
        · obtain ⟨other, inFrames, taken | running⟩ := batch member
          · exact .batched (mine inFrames) taken
          · exact .running (mine inFrames) running
        · exact .batched (mine (outermost old inOuter)) member
      · exact .batched (theirs same ▸ inLoop) member
  | @running old inLoop running =>
      by_cases same : target = thread
      · subst same
        rw [innermost] at inLoop
        rcases List.mem_cons.mp inLoop with rfl | inOuter
        · exact .signalled (runs running)
        · exact .running (mine (outermost old inOuter)) running
      · exact .running (theirs same ▸ inLoop) running
  | signalled done => exact .signalled (signals call done)

theorem willDispatch_dispatching {frame : Frame} {batch : List Message}
    (dispatching : frame.phase = .dispatching batch) :
    frame.willDispatch = batch.takeWhile frame.passes := by
  rw [Frame.willDispatch, dispatching]

theorem willDispatch_handling {frame : Frame} {message : Message} {batch : List Message}
    (handling : frame.phase = .handling message batch) :
    frame.willDispatch = batch.takeWhile frame.passes := by
  rw [Frame.willDispatch, handling]

theorem Accounted.popMessages (accounted : Accounted state target call) {frame : Frame}
    {outer : List Frame} (inv : Registered state)
    (frames : (state.thread thread).frames = frame :: outer) (popping : frame.phase = .popping)
    (reached : noFunctor ((state.queue frame.queue).eventQueue.dropWhile frame.passes) = true) :
    Accounted ((state.setQueue frame.queue { state.queue frame.queue with eventQueue := [] }).setFrames
      thread ({ frame with phase := .dispatching (state.queue frame.queue).eventQueue } :: outer))
      target call := by
  refine accounted.goesOn frames ?_ ?_ (fun _ => id) ?_ ?_ ?_ fun _ => List.mem_cons_of_mem _
  · rfl
  · rfl
  · intro queue registered member
    by_cases same : queue = frame.queue
    · subst same
      have own := inv.framed thread frame (frames ▸ List.mem_cons_self)
      refine .inr ⟨inv.injective target thread frame.queue registered own, _, List.mem_cons_self, ?_⟩
      rw [willDispatch_dispatching rfl]
      have whole : (state.queue frame.queue).eventQueue.takeWhile frame.passes ++
          (state.queue frame.queue).eventQueue.dropWhile frame.passes =
            (state.queue frame.queue).eventQueue := List.takeWhile_append_dropWhile
      rw [← whole] at member
      exact (List.mem_append.mp member).resolve_right (functor_notMem reached call)
    · left
      rwa [eventQueue_setQueue, if_neg same]
  · simp [Frame.willDispatch, popping]
  · simp [Frame.running?, popping]

theorem Accounted.takeFront (accounted : Accounted state target call) {frame : Frame}
    {outer : List Frame} {batch : List Message}
    (frames : (state.thread thread).frames = frame :: outer)
    (dispatching : frame.phase = .dispatching batch) :
    Accounted (takeFront state thread frame outer batch) target call := by
  have idle : frame.running? ≠ some (functorMessage call) := by
    simp [Frame.running?, dispatching]
  have stays (queue : Nat) (_ : state.messageQueues target = some queue)
      (member : functorMessage call ∈ (state.queue queue).eventQueue) (left : Prop) :
      functorMessage call ∈ (state.queue queue).eventQueue ∨ left := .inl member
  cases batch with
  | nil =>
      have none : functorMessage call ∉ frame.willDispatch := by
        simp [willDispatch_dispatching dispatching]
      rw [AsyncRouter.takeFront]
      split
      · exact accounted.goesOn frames rfl rfl (fun _ => id) (fun q r m => stays q r m _)
          (fun member => absurd member none) (fun runs => absurd runs idle) fun _ => id
      · exact accounted.goesOn frames rfl rfl (fun _ => id) (fun q r m => stays q r m _)
          (fun member => absurd member none) (fun runs => absurd runs idle)
          fun _ => List.mem_cons_of_mem _
  | cons front rest =>
      rw [AsyncRouter.takeFront]
      split
      · rename_i exit
        have none : functorMessage call ∉ frame.willDispatch := by
          rw [willDispatch_dispatching dispatching, List.takeWhile_cons_of_neg]
          · exact List.not_mem_nil
          · simp [Frame.passes, exit]
        exact accounted.goesOn frames rfl rfl (fun _ => id) (fun q r m => stays q r m _)
          (fun member => absurd member none) (fun runs => absurd runs idle) fun _ => id
      · rename_i passes
        refine accounted.goesOn frames rfl rfl (fun _ => id) (fun q r m => stays q r m _) ?_
          (fun runs => absurd runs idle) fun _ => List.mem_cons_of_mem _
        intro member
        rw [willDispatch_dispatching dispatching,
          List.takeWhile_cons_of_pos (by simpa [Frame.passes] using passes)] at member
        refine ⟨_, List.mem_cons_self, ?_⟩
        rcases List.mem_cons.mp member with same | later
        · exact .inr (congrArg some same.symm)
        · exact .inl later

theorem Accounted.handlerReturns (accounted : Accounted state target call) {frame : Frame}
    {outer : List Frame} {message : Message} {batch : List Message}
    (frames : (state.thread thread).frames = frame :: outer)
    (handling : frame.phase = .handling message batch) :
    Accounted ((state.handled message).setFrames thread
      ({ frame with phase := .dispatching batch } :: outer)) target call := by
  obtain ⟨sameThread, sameQueues, sameContents, _⟩ := handled_eq state message
  refine accounted.goesOn frames sameThread sameQueues ?_ ?_ ?_ ?_ fun _ => List.mem_cons_of_mem _
  · intro other done
    unfold State.handled
    split
    · exact (Function.update_apply ..).trans (by rw [done, ite_self])
    · exact done
  · intro queue _ member
    left
    rwa [sameContents]
  · intro member
    rw [willDispatch_handling handling] at member
    exact ⟨_, List.mem_cons_self, .inl member⟩
  · intro runs
    have same : message = functorMessage call := by
      rw [Frame.running?, handling] at runs
      exact Option.some.inj runs
    rw [same]
    exact Function.update_self ..

theorem Accounted.step {main : T} {action : Action T} (accounted : Accounted state target call)
    (inv : Registered state) (allowed : functorsReached state (thread, action) = true)
    (moved : Moved main state thread action after) : Accounted after target call := by
  cases moved with
  | user moved => exact accounted.user moved
  | addQueue user unlocked missing => exact accounted.addQueue inv missing
  | @entered loop queue entering registered =>
      have left : Accounted (state.setActivity thread .free) target call :=
        accounted.setActivity .free
      rw [← frames_setActivity state thread thread .free]
      exact left.enter _
  | @pushed _ message queue sending =>
      have pushed : Accounted (state.pushMessage queue message) target call :=
        accounted.setQueue fun _ => List.mem_append_left _
      exact pushed.setActivity _
  | @pushedExit _ _ queue stopping =>
      have pushed : Accounted (state.pushMessage queue exitMessage) target call :=
        accounted.setQueue fun _ => List.mem_append_left _
      exact pushed.setActivity _
  | @signalled _ _ queue sending =>
      have signalled : Accounted (state.signalQueue queue) target call :=
        accounted.setQueue fun _ => id
      exact signalled.setActivity _
  | @signalledExit _ _ queue stopping =>
      have signalled : Accounted (state.signalQueue queue) target call :=
        accounted.setQueue fun _ => id
      exact signalled.setActivity _
  | ended finished notMain unlocked =>
      cases accounted with
      | @queued queue registered member =>
          have different : target ≠ thread := by
            rintro rfl
            simp only [functorsReached, registered] at allowed
            exact functor_notMem allowed call member
          exact .queued ((Function.update_of_ne different ..).trans registered) member
      | batched inLoop member => exact .batched inLoop member
      | running inLoop runs => exact .running inLoop runs
      | signalled done => exact .signalled done
  | @waitLeft frame outer event frames waiting =>
      have waited : Accounted (state.setQueue frame.queue { state.queue frame.queue with event })
          target call := accounted.setQueue fun _ => id
      refine waited.goesOn frames rfl rfl (fun _ => id) (fun _ _ => .inl) ?_ ?_
        fun _ => List.mem_cons_of_mem _
      · simp [Frame.willDispatch, waiting]
      · simp [Frame.running?, waiting]
  | @waitStays _ frame outer event frames => exact accounted.setQueue fun _ => id
  | @popMessages frame outer frames popping =>
      simp only [functorsReached, frames] at allowed
      exact accounted.popMessages inv frames popping allowed
  | takeFront frames dispatching => exact accounted.takeFront frames dispatching
  | handlerReturns frames handling free => exact accounted.handlerReturns frames handling

end

structure CallersAccounted (state : State T) : Prop where
  typed : ∀ caller target message stage call,
    (state.thread caller).activity = .send target message stage →
      message.messageData = some call → message = functorMessage call
  sent : ∀ caller target call stage,
    (state.thread caller).activity = .send target (functorMessage call) stage →
      stage ≠ .find → (∀ queue, stage ≠ .push queue) → Accounted state target call
  waiting : NeverOrphaned state

section
variable [DecidableEq T] {thread : T} {state after : State T}

theorem CallersAccounted.keeps (inv : CallersAccounted state)
    (kept : ∀ target call, Accounted state target call → Accounted after target call)
    (others : ∀ other, other ≠ thread →
      (after.thread other).activity = (state.thread other).activity)
    (typed : ∀ target message stage call,
      (after.thread thread).activity = .send target message stage →
        message.messageData = some call → message = functorMessage call)
    (sent : ∀ target call stage,
      (after.thread thread).activity = .send target (functorMessage call) stage →
        stage ≠ .find → (∀ queue, stage ≠ .push queue) → Accounted after target call)
    (waiting : ∀ target call, (after.thread thread).activity = .await target call →
      Accounted after target call) : CallersAccounted after where
  typed := by
    intro other target message stage call sending
    by_cases same : other = thread
    · exact typed target message stage call (same ▸ sending)
    · rw [others other same] at sending
      exact inv.typed other target message stage call sending
  sent := by
    intro other target call stage sending
    by_cases same : other = thread
    · exact sent target call stage (same ▸ sending)
    · rw [others other same] at sending
      exact fun started pushed =>
        kept target call (inv.sent other target call stage sending started pushed)
  waiting := by
    intro other target call awaiting
    by_cases same : other = thread
    · exact waiting target call (same ▸ awaiting)
    · rw [others other same] at awaiting
      exact kept target call (inv.waiting other target call awaiting)

omit [DecidableEq T] in
theorem CallersAccounted.same (inv : CallersAccounted state)
    (kept : ∀ target call, Accounted state target call → Accounted after target call)
    (activities : ∀ other, (after.thread other).activity = (state.thread other).activity) :
    CallersAccounted after where
  typed := by
    intro other target message stage call sending
    rw [activities] at sending
    exact inv.typed other target message stage call sending
  sent := by
    intro other target call stage sending started pushed
    rw [activities] at sending
    exact kept target call (inv.sent other target call stage sending started pushed)
  waiting := by
    intro other target call awaiting
    rw [activities] at awaiting
    exact kept target call (inv.waiting other target call awaiting)

theorem CallersAccounted.user (inv : CallersAccounted state)
    (moved : UserMoved state thread after) : CallersAccounted after := by
  obtain ⟨_, _, _, _, _, others⟩ := moved.frame
  have kept (target : T) (call : Nat) (accounted : Accounted state target call) :
      Accounted after target call := accounted.user moved
  refine inv.keeps kept others ?_ ?_ ?_
  · intro target message stage call sending isFunctor
    cases moved with
    | initialized => exact inv.typed thread target message stage call sending isFunctor
    | send user plain =>
        simp only [activity_setActivity, if_true, Activity.send.injEq] at sending
        rw [sending.2.1, isFunctor] at plain
        contradiction
    | callSync user =>
        simp only [activity_setActivity, if_true, Activity.send.injEq] at sending
        obtain ⟨_, rfl, _⟩ := sending
        exact congrArg functorMessage (Option.some.inj isFunctor)
    | found unlocked finding registered =>
        simp only [activity_setActivity, if_true, Activity.send.injEq] at sending
        obtain ⟨_, rfl, _⟩ := sending
        exact inv.typed thread _ _ _ call finding isFunctor
    | unlock sending' =>
        simp only [activity_setActivity, if_true] at sending
        split at sending <;> contradiction
    | _ => simp at sending
  · intro target call stage sending started pushed
    cases moved with
    | initialized => exact inv.sent thread target call stage sending started pushed
    | found unlocked finding registered =>
        simp only [activity_setActivity, if_true, Activity.send.injEq] at sending
        exact absurd sending.2.2.symm (pushed _)
    | unlock sending' =>
        simp only [activity_setActivity, if_true] at sending
        split at sending <;> contradiction
    | _ =>
        simp at sending
        try exact absurd sending.2.2.symm started
  · intro target call awaiting
    cases moved with
    | initialized => exact inv.waiting thread target call awaiting
    | @unlock _ message sending =>
        simp only [activity_setActivity, if_true] at awaiting
        split at awaiting
        · rename_i call' isFunctor
          cases awaiting
          have typed := inv.typed thread _ _ _ _ sending isFunctor
          have sent := inv.sent thread _ _ .unlock (typed ▸ sending) (by simp) (by simp)
          have waiting : Accounted (state.setActivity thread (.await target call)) target call :=
            sent.setActivity _
          exact waiting.congr rfl (fun _ _ => id) (fun _ => id) id
        · contradiction
    | _ => simp at awaiting

theorem CallersAccounted.sends (inv : CallersAccounted state) {before : State T}
    {activity : Activity T}
    (kept : ∀ target call, Accounted state target call →
      Accounted (before.setActivity thread activity) target call)
    (sameThread : before.thread = state.thread)
    (goesOn : ∀ target message stage, activity = .send target message stage →
      ∃ stage', (state.thread thread).activity = .send target message stage')
    (sent : ∀ target call stage, activity = .send target (functorMessage call) stage →
      Accounted (before.setActivity thread activity) target call)
    (noWait : ∀ target call, activity ≠ .await target call) :
    CallersAccounted (before.setActivity thread activity) := by
  have others : ∀ other, other ≠ thread →
      ((before.setActivity thread activity).thread other).activity =
        (state.thread other).activity := by
    intro other different
    rw [activity_setActivity, if_neg different, sameThread]
  refine inv.keeps kept others ?_ ?_ ?_
  · intro target message stage call sending
    rw [activity_setActivity, if_pos rfl] at sending
    obtain ⟨stage', earlier⟩ := goesOn target message stage sending
    exact inv.typed thread target message stage' call earlier
  · intro target call stage sending _ _
    rw [activity_setActivity, if_pos rfl] at sending
    exact sent target call stage sending
  · intro target call awaiting
    rw [activity_setActivity, if_pos rfl] at awaiting
    exact absurd awaiting (noWait target call)

theorem CallersAccounted.step {main : T} {action : Action T} (inv : CallersAccounted state)
    (registry : Registered state) (allowed : functorsReached state (thread, action) = true)
    (moved : Moved main state thread action after) : CallersAccounted after := by
  have kept (target : T) (call : Nat) (accounted : Accounted state target call) :
      Accounted after target call := accounted.step registry allowed moved
  cases moved with
  | user moved => exact inv.user moved
  | addQueue user unlocked missing => exact inv.same kept fun _ => rfl
  | @entered call queue entering registered =>
      have left : CallersAccounted (state.setActivity thread .free) :=
        inv.sends (fun _ _ accounted => accounted.setActivity .free) rfl nofun nofun nofun
      rw [← frames_setActivity state thread thread .free] at kept ⊢
      exact left.same (fun _ _ accounted => accounted.enter _) fun _ => activity_setFrames ..
  | @pushed target message queue sending =>
      refine inv.sends kept rfl ?_ ?_ nofun
      · rintro _ _ _ ⟨⟩
        exact ⟨_, sending⟩
      · rintro _ call _ ⟨⟩
        refine .queued (registry.sending thread target _ queue sending) ?_
        rw [queue_setActivity, State.pushMessage, eventQueue_setQueue, if_pos rfl]
        exact List.mem_append_right _ List.mem_cons_self
  | pushedExit stopping => exact inv.sends kept rfl nofun nofun nofun
  | @signalled target message queue sending =>
      refine inv.sends kept rfl ?_ ?_ nofun
      · rintro _ _ _ ⟨⟩
        exact ⟨_, sending⟩
      · rintro _ call _ ⟨⟩
        exact kept target call (inv.sent thread target call _ sending (by simp) (by simp))
  | signalledExit stopping => exact inv.sends kept rfl nofun nofun nofun
  | ended finished notMain unlocked => exact inv.same kept fun _ => rfl
  | waitLeft frames waiting => exact inv.same kept fun _ => activity_setFrames ..
  | waitStays frames => exact inv.same kept fun _ => rfl
  | popMessages frames popping => exact inv.same kept fun _ => activity_setFrames ..
  | @takeFront frame outer batch frames dispatching =>
      refine inv.same kept ?_
      obtain ⟨next, equal, _⟩ := takeFront_frames state thread frame outer batch
      rw [equal]
      exact fun _ => activity_setFrames ..
  | @handlerReturns frame outer message batch frames handling free =>
      refine inv.same kept fun other => ?_
      rw [activity_setFrames, (handled_eq state message).1]

end

theorem callers_never_orphaned {main : T} [DecidableEq T] {state : State T}
    (reach : Lib.Reachable (step main) (fun state move => functorsReached state move = true) .init
      state) : NeverOrphaned state := by
  have accounted : CallersAccounted state := by
    apply reach.invariant_beside registered_reached
    · exact ⟨nofun, nofun, nofun⟩
    · rintro before ⟨thread, action⟩ after registry inv allowed moved
      exact inv.step registry allowed (step_moved moved)
  exact accounted.waiting

/-- The functor is pushed behind the exit message, and popped together with it. -/
def callBehindExit : List (Fin 3 × Action (Fin 3)) :=
  [(1, .initThreadMessageQueue), (1, .enter androidLoopStart), (1, .lookUp), (2, .stop 1),
    (2, .lookUp), (2, .push), (2, .signal), (0, .callSync 1), (0, .lookUp), (0, .push),
    (0, .signal), (0, .unlock), (1, .wait), (1, .popMessages), (1, .takeFront)]

def orphaned : State (Fin 3) :=
  Lib.final (step 0) Lib.anyAction .init callBehindExit (by decide +kernel)

theorem caller_orphaned :
    Lib.Reachable (step 0) Lib.anyAction .init orphaned ∧ ¬ NeverOrphaned orphaned := by
  refine ⟨Lib.reachable_final callBehindExit (by decide +kernel), ?_⟩
  intro never
  have noFrame : (orphaned.thread 1).frames = [] := by decide +kernel
  cases never 0 1 0 (by decide +kernel) with
  | @queued queue registered member =>
      have first : orphaned.messageQueues 1 = some 0 := by decide +kernel
      cases first.symm.trans registered
      revert member
      decide +kernel
  | batched inLoop => exact absurd (noFrame ▸ inLoop) List.not_mem_nil
  | running inLoop => exact absurd (noFrame ▸ inLoop) List.not_mem_nil
  | signalled done =>
      revert done
      decide +kernel

/-- The functor is pushed first, so the loop runs it before it leaves. -/
def callBeforeExit : List (Fin 3 × Action (Fin 3)) :=
  [(1, .initThreadMessageQueue), (1, .enter androidLoopStart), (1, .lookUp), (2, .stop 1),
    (2, .lookUp), (0, .callSync 1), (0, .lookUp), (0, .push), (0, .signal), (0, .unlock),
    (2, .push), (2, .signal), (1, .wait), (1, .popMessages), (1, .takeFront)]

def called : State (Fin 3) :=
  Lib.final (step 0) (fun state move => functorsReached state move = true) .init callBeforeExit
    (by decide +kernel)

theorem called_not_orphaned :
    (called.thread 0).activity = .await 1 0 ∧ NeverOrphaned called := by
  have reach : Lib.Reachable (step 0) (fun state move => functorsReached state move = true) .init
      called := Lib.reachable_final callBeforeExit (by decide +kernel)
  exact ⟨by decide +kernel, callers_never_orphaned reach⟩

end ThreadIpc.AsyncRouter

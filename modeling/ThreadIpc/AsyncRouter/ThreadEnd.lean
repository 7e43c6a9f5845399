import ThreadIpc.AsyncRouter.Registry

/-!
# The end of a thread that is being stopped

`Send` keeps `queue_mutex_` until its message is pushed. `Stop` gives it up when `GetQueue` returns,
so that the end hook of the target can delete the queue that `Stop` is about to use.
-/

namespace ThreadIpc.AsyncRouter
open ThreadQueue

variable {T : Type} [DecidableEq T]

structure QueuesOutliveUse (state : State T) : Prop where
  send : ∀ thread target message queue,
    (state.thread thread).activity = .send target message (.push queue) →
      state.messageQueues target = some queue
  stop : ∀ thread target looping queue,
    (state.thread thread).activity = .stop target looping (.push queue) →
      state.messageQueues target = some queue
  asserted : ∀ thread, (state.thread thread).activity ≠ .failed true

/-- Between `Stop` on a looping thread, or the return of its `GetQueue`, and `SendMessage`. -/
def Activity.mayUseQueueOf (target : T) : Activity T → Bool
  | .stop target' looping .find => target' = target ∧ looping = true
  | .stop target' _ (.push _) => target' = target
  | _ => false

/-- No end hook runs while another thread is inside of a `Stop` on the thread that ends. -/
def noEndDuringStop (state : State T) (move : T × Action T) : Prop :=
  move.2 = .threadEndHook →
    ∀ other, ((state.thread other).activity.mayUseQueueOf move.1) = false

structure StopsSafely (state : State T) : Prop where
  found : ∀ thread target, (state.thread thread).activity = .stop target true .find →
    state.messageQueues target ≠ none
  got : ∀ thread target looping queue,
    (state.thread thread).activity = .stop target looping (.push queue) →
      state.messageQueues target = some queue
  asserted : ∀ thread, (state.thread thread).activity ≠ .failed true

section
variable {main thread : T} {state after : State T}

omit [DecidableEq T] in
theorem Registered.looping (inv : Registered state) (looping : state.isLooping thread = true) :
    state.messageQueues thread ≠ none := by
  obtain ⟨frame, member, _⟩ := List.any_eq_true.mp looping
  rw [inv.framed thread frame member]
  exact Option.some_ne_none _

theorem StopsSafely.keeps (safe : StopsSafely state)
    (queues : ∀ target queue, state.messageQueues target = some queue →
      after.messageQueues target = some queue)
    (others : ∀ other, other ≠ thread →
      (after.thread other).activity = (state.thread other).activity)
    (mine : ∀ target, (after.thread thread).activity = .stop target true .find →
      after.messageQueues target ≠ none)
    (mine' : ∀ target looping queue,
      (after.thread thread).activity = .stop target looping (.push queue) →
        after.messageQueues target = some queue)
    (mine'' : (after.thread thread).activity ≠ .failed true) : StopsSafely after where
  found := by
    intro other target stopping
    by_cases same : other = thread
    · exact mine target (same ▸ stopping)
    · rw [others other same] at stopping
      obtain ⟨queue, registered⟩ := Option.ne_none_iff_exists'.mp (safe.found other target stopping)
      rw [queues target queue registered]
      exact Option.some_ne_none _
  got := by
    intro other target looping queue stopping
    by_cases same : other = thread
    · exact mine' target looping queue (same ▸ stopping)
    · rw [others other same] at stopping
      exact queues target queue (safe.got other target looping queue stopping)
  asserted := by
    intro other
    by_cases same : other = thread
    · exact same ▸ mine''
    · rw [others other same]
      exact safe.asserted other

theorem StopsSafely.user (safe : StopsSafely state) (inv : Registered state)
    (moved : UserMoved state thread after) : StopsSafely after := by
  obtain ⟨_, queues, _, _, _, others⟩ := moved.frame
  refine safe.keeps ?_ others ?_ ?_ ?_
  · rw [queues]
    exact fun _ _ => id
  · intro target stopping
    rw [queues]
    cases moved with
    | initialized => exact safe.found thread target stopping
    | stop user =>
        simp only [activity_setActivity, if_true, Activity.stop.injEq] at stopping
        exact stopping.1 ▸ inv.looping stopping.2.1
    | unlock sending =>
        simp only [activity_setActivity, if_true] at stopping
        split at stopping <;> contradiction
    | _ => simp at stopping
  · intro target looping queue stopping
    rw [queues]
    cases moved with
    | initialized => exact safe.got thread target looping queue stopping
    | got unlocked finding registered =>
        simp only [activity_setActivity, if_true, Activity.stop.injEq, Stage.push.injEq] at stopping
        obtain ⟨rfl, _, rfl⟩ := stopping
        exact registered
    | unlock sending =>
        simp only [activity_setActivity, if_true] at stopping
        split at stopping <;> contradiction
    | _ => simp at stopping
  · cases moved with
    | initialized => exact safe.asserted thread
    | @missed target looping unlocked stopping missing =>
        rw [activity_setActivity, if_pos rfl]
        rintro ⟨⟩
        exact safe.found thread target stopping missing
    | unlock sending =>
        simp only [activity_setActivity, if_true]
        split <;> exact nofun
    | _ => simp

omit [DecidableEq T] in
theorem StopsSafely.same (safe : StopsSafely state)
    (queues : ∀ target queue, state.messageQueues target = some queue →
      after.messageQueues target = some queue)
    (activities : ∀ other, (after.thread other).activity = (state.thread other).activity) :
    StopsSafely after := by
  refine ⟨?_, ?_, fun other => activities other ▸ safe.asserted other⟩
  · intro other target stopping
    rw [activities] at stopping
    obtain ⟨queue, registered⟩ := Option.ne_none_iff_exists'.mp (safe.found other target stopping)
    rw [queues target queue registered]
    exact Option.some_ne_none _
  · intro other target looping queue stopping
    rw [activities] at stopping
    exact queues target queue (safe.got other target looping queue stopping)

theorem StopsSafely.leaves (safe : StopsSafely state) {before : State T} {activity : Activity T}
    (sameThread : before.thread = state.thread)
    (sameQueues : before.messageQueues = state.messageQueues)
    (other : ∀ target, activity.mayUseQueueOf target = false) (passed : activity ≠ .failed true) :
    StopsSafely (before.setActivity thread activity) := by
  have others : ∀ user, user ≠ thread →
      ((before.setActivity thread activity).thread user).activity =
        (state.thread user).activity := by
    intro user different
    rw [activity_setActivity, if_neg different, sameThread]
  refine safe.keeps ?_ others ?_ ?_ ?_
  · exact fun target queue registered => sameQueues ▸ registered
  · intro target stopping
    rw [activity_setActivity, if_pos rfl] at stopping
    have uses := other target
    simp [stopping, Activity.mayUseQueueOf] at uses
  · intro target looping queue stopping
    rw [activity_setActivity, if_pos rfl] at stopping
    have uses := other target
    simp [stopping, Activity.mayUseQueueOf] at uses
  · rw [activity_setActivity, if_pos rfl]
    exact passed

theorem StopsSafely.ended (safe : StopsSafely state)
    (alone : ∀ other, ((state.thread other).activity.mayUseQueueOf thread) = false) :
    StopsSafely { state with messageQueues := Function.update state.messageQueues thread none } := by
  have different (other target : T)
      (uses : ((state.thread other).activity.mayUseQueueOf target) = true) : target ≠ thread := by
    rintro rfl
    rw [alone other] at uses
    contradiction
  refine ⟨?_, ?_, safe.asserted⟩
  · intro other target (stopping : (state.thread other).activity = .stop target true .find)
    have spared : target ≠ thread := different other target (by
      simp [stopping, Activity.mayUseQueueOf])
    intro missing
    exact safe.found other target stopping ((Function.update_of_ne spared ..).symm.trans missing)
  · intro other target looping queue
      (stopping : (state.thread other).activity = .stop target looping (.push queue))
    have spared : target ≠ thread := different other target (by
      simp [stopping, Activity.mayUseQueueOf])
    exact (Function.update_of_ne spared ..).trans (safe.got other target looping queue stopping)

theorem StopsSafely.step (safe : StopsSafely state) (inv : Registered state) {action : Action T}
    (allowed : noEndDuringStop state (thread, action))
    (moved : Moved main state thread action after) : StopsSafely after := by
  cases moved with
  | user moved => exact safe.user inv moved
  | addQueue user unlocked missing =>
      refine safe.same ?_ fun _ => rfl
      intro target queue registered
      have different : target ≠ thread := by
        rintro rfl
        rw [missing] at registered
        contradiction
      rw [messageQueues_addQueue, Function.update_of_ne different]
      exact registered
  | entered entering registered =>
      have left : StopsSafely (state.setActivity thread .free) :=
        safe.leaves rfl rfl (fun _ => rfl) nofun
      exact left.same (fun _ _ => id) fun _ => activity_setFrames ..
  | pushed sending => exact safe.leaves rfl rfl (fun _ => rfl) nofun
  | pushedExit stopping => exact safe.leaves rfl rfl (fun _ => rfl) nofun
  | signalled sending => exact safe.leaves rfl rfl (fun _ => rfl) nofun
  | signalledExit stopping => exact safe.leaves rfl rfl (fun _ => rfl) nofun
  | ended finished notMain unlocked => exact safe.ended (allowed rfl)
  | waitLeft frames waiting => exact safe.same (fun _ _ => id) fun _ => activity_setFrames ..
  | waitStays frames => exact safe.same (fun _ _ => id) fun _ => rfl
  | popMessages frames popping => exact safe.same (fun _ _ => id) fun _ => activity_setFrames ..
  | @takeFront frame outer batch frames dispatching =>
      obtain ⟨next, equal, _⟩ := takeFront_frames state thread frame outer batch
      rw [equal]
      exact safe.same (fun _ _ => id) fun _ => activity_setFrames ..
  | @handlerReturns frame outer message batch frames handling free =>
      obtain ⟨sameThread, sameQueues, _⟩ := handled_eq state message
      refine safe.same ?_ ?_
      · exact fun _ _ registered => sameQueues ▸ registered
      · intro other
        rw [activity_setFrames, sameThread]

end

theorem queues_outlive_use {main : T} {state : State T}
    (reach : Lib.Reachable (step main) noEndDuringStop .init state) : QueuesOutliveUse state := by
  have safe : StopsSafely state := by
    apply reach.invariant_beside registered_reached
    · exact ⟨nofun, nofun, nofun⟩
    · rintro before ⟨thread, action⟩ after inv safe allowed moved
      exact safe.step inv allowed (step_moved moved)
  exact ⟨(registered_reached state reach).sending, safe.got, safe.asserted⟩

def stoppedTwice : List (Fin 4 × Action (Fin 4)) :=
  [(1, .initThreadMessageQueue), (1, .enter androidLoopStart), (1, .lookUp), (0, .stop 1),
    (0, .lookUp), (2, .stop 1), (2, .lookUp), (2, .push), (2, .signal), (1, .wait),
    (1, .popMessages), (1, .takeFront), (1, .threadEndHook)]

theorem stopped_queue_deleted : ∃ state : State (Fin 4),
    Lib.Reachable (step 0) Lib.anyAction .init state ∧ ¬ QueuesOutliveUse state := by
  refine ⟨_, Lib.reachable_final stoppedTwice (by decide +kernel), ?_⟩
  intro outlive
  have registered := outlive.stop 0 1 true 0 (by decide +kernel)
  revert registered
  decide +kernel

instance {n : Nat} (state : State (Fin n)) (move : Fin n × Action (Fin n)) :
    Decidable (noEndDuringStop state move) :=
  inferInstanceAs (Decidable (_ → _))

def stoppedInTime : List (Fin 4 × Action (Fin 4)) :=
  [(1, .initThreadMessageQueue), (1, .enter androidLoopStart), (1, .lookUp), (0, .stop 1),
    (0, .lookUp), (2, .stop 1), (2, .lookUp), (2, .push), (2, .signal), (1, .wait),
    (1, .popMessages), (1, .takeFront), (0, .push), (0, .signal), (1, .threadEndHook)]

def stoppedThread : State (Fin 4) :=
  Lib.final (step 0) noEndDuringStop .init stoppedInTime (by decide +kernel)

theorem stopped_in_time : stoppedThread.messageQueues 1 = none ∧ QueuesOutliveUse stoppedThread := by
  have reach : Lib.Reachable (step 0) noEndDuringStop .init stoppedThread :=
    Lib.reachable_final stoppedInTime (by decide +kernel)
  exact ⟨by decide +kernel, queues_outlive_use reach⟩

end ThreadIpc.AsyncRouter

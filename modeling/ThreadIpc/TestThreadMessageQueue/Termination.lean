import Mathlib.Algebra.GroupWithZero.Nat
import ThreadIpc.TestThreadMessageQueue.Steps

/-!
# Termination

Every step of a thread pays for itself and for what it makes the other thread do.
-/

namespace ThreadIpc.TestThreadMessageQueue
open ThreadQueue (OwnerCall OwnerState Posted)
open ThreadStart (ChildPhase)
open AsyncRouter (kAndroidLoopExit androidLoopStart)

variable {T : Type} [DecidableEq T]

def messageCost (message : Message T) : Nat :=
  if message.messageType = kAndroidLoopExit then 1
  else if message.messageType = kMessageType3 then 12 else 26

def messagesCost (messages : List (Posted T (Option (TestMessage T)))) : Nat :=
  (messages.map fun posted => messageCost posted.message).sum

def testCost (event : ThreadQueue.Event T) (owner : T) : Nat :=
  if event.waiter owner = .blocked then 0 else 1

def ownerCost (again test : Nat) : OwnerState T (Option (TestMessage T)) → Nat
  | .idle => again + 1
  | .waiting _ => test
  | .popping _ => again + 3
  | .dispatching _ _ | .handling _ _ => again + 2

def signalCost (again : Nat) (event : ThreadQueue.Event T) : Nat :=
  if event.signal_ then again + 3 else 0

def queueCost (again : Nat) (owner : T) (queue : ThreadQueue.State T (Option (TestMessage T))) : Nat :=
  messagesCost queue.eventQueue + messagesCost queue.localEventQueue +
    signalCost again queue.event + ownerCost again (testCost queue.event owner) queue.owner

def Stage.cost (message wakes : Nat) : Stage → Nat
  | .find => message + wakes + 4
  | .push => message + wakes + 3
  | .signal => wakes + 2
  | .unlock => 1

def startCost (thread : ThreadStart.State T) : Nat :=
  match thread.parent with
  | .waiting => if thread.startedEvent.waiter () = .blocked then 2 else 3
  | _ => 1

def Main.cost (messages : Nat) (thread : ThreadStart.State T) : Main T → Nat
  | .initThreadMessageQueue => 34 * messages + 12
  | .registerHandler => 34 * messages + 11
  | .start => 34 * messages + 10
  | .starting => 34 * messages + 6 + startCost thread
  | .send _ index stage => 34 * (messages - (index + 1)) + 6 +
      (if index < messages then Stage.cost 26 4 stage else 0)
  | .running => 6
  | .isDone => 5
  | .getQueue => 4
  | .handle _ => 17
  | .stop _ => 16
  | .stopPush _ => 15
  | .stopSignal _ => 13
  | .setDone => 8
  | .handled => 7
  | .join => 3
  | .joining => 2
  | .destroy => 1
  | .finished | .failed => 0

def Worker.cost : Worker T → Nat
  | .registerHandler1 => 8
  | .registerHandler2 => 7
  | .getQueue => 6
  | .running => 5
  | .handle _ => 30
  | .send _ stage => Stage.cost 12 7 stage + 6
  | .handled => 6
  | .returned => 4
  | .failed => 0

def childCost (worker : Worker T) (thread : ThreadStart.State T) : Nat :=
  if thread.created = 0 then 13 else
  match (thread.child 0).phase with
  | .initThreadMessageQueue => 13
  | .setThreadId => 12
  | .setRunning => 11
  | .signal => 10
  | .run => worker.cost
  | .clearRunning => 3
  | .threadEndHook => 2
  | .terminate => 1
  | .terminated => 0

def State.cost (program : Program T) (s : State T) : Nat :=
  s.main.cost program.messages.length s.thread + childCost s.worker s.thread +
    queueCost 3 program.main (s.queue program.main) + queueCost 0 program.worker (s.queue program.worker)

section Queue
variable {again : Nat} {owner sender : T} {queue after : ThreadQueue.State T (Option (TestMessage T))}

omit [DecidableEq T] in
theorem testCost_le (event : ThreadQueue.Event T) (owner : T) : testCost event owner ≤ 1 := by
  unfold testCost
  split <;> omega

omit [DecidableEq T] in
theorem ownerCost_le (again test : Nat) (state : OwnerState T (Option (TestMessage T))) :
    ownerCost again test state ≤ ownerCost again 0 state + test ∧
      ownerCost again 0 state ≤ ownerCost again test state := by
  cases state <;> simp only [ownerCost] <;> omega

omit [DecidableEq T] in
theorem ownerCost_woken (again : Nat) (event woken : ThreadQueue.Event T)
    (state : OwnerState T (Option (TestMessage T))) :
    ownerCost again (testCost woken owner) state ≤ ownerCost again (testCost event owner) state + 1 := by
  have test := testCost_le woken owner
  have later := (ownerCost_le again (testCost woken owner) state).1
  have before := (ownerCost_le again (testCost event owner) state).2
  omega

theorem queueCost_push {message : Message T}
    (moved : ThreadQueue.step owner queue (.push sender message) = some after) :
    queueCost again owner after = queueCost again owner queue + messageCost message := by
  cases ThreadQueue.step_moved moved with
  | push =>
      have more : messagesCost (queue.eventQueue ++ [⟨sender, message⟩]) =
          messagesCost queue.eventQueue + messageCost message := by
        simp [messagesCost]
      show messagesCost (queue.eventQueue ++ [⟨sender, message⟩]) + messagesCost queue.localEventQueue +
        signalCost again queue.event + ownerCost again (testCost queue.event owner) queue.owner = _
      rw [more, queueCost]
      omega

theorem queueCost_signal (moved : ThreadQueue.step owner queue (.signal sender) = some after) :
    queueCost again owner after ≤ queueCost again owner queue + again + 4 := by
  cases ThreadQueue.step_moved moved with
  | signal =>
      show messagesCost queue.eventQueue + messagesCost queue.localEventQueue +
        signalCost again queue.event.signal +
          ownerCost again (testCost queue.event.signal owner) queue.owner ≤ _
      have woken := @ownerCost_woken T owner again queue.event queue.event.signal queue.owner
      rw [queueCost]
      cases set : queue.event.signal_ with
      | true =>
          rw [ThreadQueue.Event.signal, if_pos set]
          omega
      | false =>
          have unset : signalCost again queue.event = 0 := by
            simp [signalCost, set]
          have raised : signalCost again queue.event.signal = again + 3 :=
            if_pos (ThreadQueue.Event.signal_signal_ _)
          omega

theorem queueCost_call {call : OwnerCall}
    (moved : ThreadQueue.step owner queue (.call call) = some after) :
    queueCost again owner after + again ≤ queueCost again owner queue := by
  cases ThreadQueue.step_moved moved with
  | call idle =>
      have test := testCost_le queue.event owner
      simp only [queueCost, idle, ThreadQueue.State.localEventQueue, ownerCost]
      omega

theorem queueCost_wait (moved : ThreadQueue.step owner queue .wait = some after) :
    queueCost again owner after < queueCost again owner queue := by
  simp only [ThreadQueue.step] at moved
  split at moved
  · rename_i call waiting
    split at moved
    · contradiction
    · rename_i unblocked
      have test : testCost queue.event owner = 1 := if_neg unblocked
      cases set : queue.event.signal_ with
      | true =>
          simp only [ThreadQueue.Event.waitTest, set, if_true] at moved
          cases Option.some.inj moved
          have raised : signalCost again queue.event = again + 3 := if_pos set
          simp only [queueCost, waiting, ThreadQueue.State.localEventQueue, ownerCost, test, raised]
          simp [signalCost]
      | false =>
          simp only [ThreadQueue.Event.waitTest, set, Bool.false_eq_true, if_false] at moved
          cases Option.some.inj moved
          simp only [queueCost, waiting, ThreadQueue.State.localEventQueue, ownerCost, test]
          simp [signalCost, set, testCost]
  · contradiction

theorem queueCost_popMessages (moved : ThreadQueue.step owner queue .popMessages = some after) :
    queueCost again owner after < queueCost again owner queue := by
  cases ThreadQueue.step_moved moved with
  | popMessages popping =>
      have none_ : messagesCost ([] : List (Posted T (Option (TestMessage T)))) = 0 := rfl
      simp only [queueCost, popping, ThreadQueue.State.localEventQueue,
        ThreadQueue.State.popMessages, ownerCost]
      omega

theorem queueCost_handlerReturns
    (moved : ThreadQueue.step owner queue .handlerReturns = some after) :
    queueCost again owner after = queueCost again owner queue := by
  cases ThreadQueue.step_moved moved with
  | handlerReturns handling =>
      simp only [queueCost, handling, ThreadQueue.State.localEventQueue, ownerCost]

theorem queueCost_takeFront {call : OwnerCall} {batch : List (Posted T (Option (TestMessage T)))}
    (dispatching : queue.owner = .dispatching call batch)
    (moved : ThreadQueue.step owner queue .takeFront = some after) : match batch with
      | [] => queueCost again owner after < queueCost again owner queue
      | front :: _ => if call = .getAndDispatchMessages front.message.messageType then
            queueCost again owner after < queueCost again owner queue
          else queueCost again owner after + messageCost front.message = queueCost again owner queue := by
  have test := testCost_le queue.event owner
  cases ThreadQueue.step_moved moved with
  | @takeFront call' batch' dispatching' =>
      cases dispatching.symm.trans dispatching'
      cases batch with
      | nil => cases call <;>
          simp only [queueCost, dispatching, ThreadQueue.State.localEventQueue,
            ThreadQueue.State.takeFront, ownerCost] <;> omega
      | cons front rest =>
          have first : messagesCost (front :: rest) = messageCost front.message + messagesCost rest := rfl
          simp only [ThreadQueue.State.takeFront]
          split
          · have none_ : messagesCost ([] : List (Posted T (Option (TestMessage T)))) = 0 := rfl
            simp only [queueCost, dispatching, ThreadQueue.State.localEventQueue, ownerCost]
            omega
          · simp only [queueCost, dispatching, ThreadQueue.State.localEventQueue, ownerCost]
            omega

theorem queueCost_spuriousWakeup
    (moved : ThreadQueue.step owner queue .spuriousWakeup = some after) :
    queueCost again owner after ≤ queueCost again owner queue + 1 := by
  cases ThreadQueue.step_moved moved with
  | spuriousWakeup =>
      have woken := @ownerCost_woken T owner again queue.event
        (queue.event.spuriousWakeup owner) queue.owner
      show messagesCost queue.eventQueue + messagesCost queue.localEventQueue +
        signalCost again queue.event +
          ownerCost again (testCost (queue.event.spuriousWakeup owner) owner) queue.owner ≤ _
      rw [queueCost]
      omega

end Queue

variable {program : Program T} {s after : State T}

theorem LoopMoved.queueCost_goesOn {owner : T} (moved : LoopMoved s owner after .goesOn) (again : Nat) :
    ∃ queue, after = { s with queue := Function.update s.queue owner queue } ∧
      queueCost again owner queue < queueCost again owner (s.queue owner) := by
  cases moved with
  | waits waiting ran => exact ⟨_, rfl, queueCost_wait ran⟩
  | pops popping ran => exact ⟨_, rfl, queueCost_popMessages ran⟩
  | empties dispatching ran => exact ⟨_, rfl, queueCost_takeFront dispatching ran⟩
  | exits dispatching exit ran =>
      have cost := @queueCost_takeFront T _ again _ _ _ _ _ dispatching ran
      simp only [if_pos exit] at cost
      exact ⟨_, rfl, cost⟩

theorem LoopMoved.queueCost_handles {owner : T} {message : Message T}
    (moved : LoopMoved s owner after (.handles message)) (again : Nat) :
    ∃ queue, after = { s with queue := Function.update s.queue owner queue } ∧
      queueCost again owner queue + messageCost message = queueCost again owner (s.queue owner) := by
  cases moved with
  | handles dispatching plain ran =>
      have cost := @queueCost_takeFront T _ again _ _ _ _ _ dispatching ran
      simp only [if_neg plain] at cost
      exact ⟨_, rfl, cost⟩

omit [DecidableEq T] in
theorem childCost_same {worker : Worker T} {thread later : ThreadStart.State T}
    (child : later.child = thread.child) (created : later.created = thread.created) :
    childCost worker later = childCost worker thread := by
  rw [childCost, childCost, child, created]

omit [DecidableEq T] in
theorem startCost_le (thread : ThreadStart.State T) : startCost thread ≤ 3 := by
  unfold startCost
  split
  · split <;> omega
  · omega

omit [DecidableEq T] in
theorem result_cost (worker : T) : messageCost (result worker) = 12 := rfl

omit [DecidableEq T] in
theorem entryMessage_cost (main : T) (entry : Background × Int32) :
    messageCost (entryMessage main entry) = 26 := by
  obtain ⟨handler, data⟩ := entry
  cases handler <;> rfl

theorem startCost_wait {thread later : ThreadStart.State T} {main : T}
    (moved : ThreadStart.step main thread .wait = some later) : startCost later < startCost thread := by
  simp only [ThreadStart.step, Option.ite_none_right_eq_some] at moved
  obtain ⟨⟨waiting, unblocked⟩, moved⟩ := moved
  have three : startCost thread = 3 := by
    rw [startCost, waiting]
    exact if_neg unblocked
  split at moved <;> rename_i event tested <;> cases Option.some.inj moved
  · rw [three]
    exact Nat.lt_of_sub_eq_succ rfl
  · have blocked : event.waiter () = .blocked := by
      rw [ThreadQueue.Event.waitTest] at tested
      split at tested
      · cases (Prod.mk.inj tested).1
      · rw [← (Prod.mk.inj tested).2]
        simp
    have two : startCost { thread with startedEvent := event } = 2 := by
      rw [startCost]
      simp only [waiting, blocked, if_true]
    omega

theorem mainStep_send_cost (inv : Inv program s) {workerThreadId : T} {index : Nat} {stage : Stage}
    (sending : s.main = .send workerThreadId index stage) (moved : mainStep program s = some after) :
    after.cost program < s.cost program := by
  obtain ⟨thread, queue, mutex, handlers, main, worker, count, done, received, failed, erased⟩ := s
  have sending : main = .send workerThreadId index stage := sending
  subst sending
  obtain ⟨notDone, rfl, bound⟩ := inv.main
  simp only [mainStep] at moved
  split at moved
  · cases Option.some.inj moved
    simp only [State.cost, State.atMain, Main.cost]
    omega
  · rename_i handler data here
    obtain ⟨inside, entry⟩ := List.getElem?_eq_some_iff.mp here
    obtain ⟨⟨middle, stage'⟩, sent, rfl⟩ := Option.map_eq_some_iff.mp moved
    cases sendStep_moved sent with
    | finds accepted =>
        simp only [State.cost, State.atMain, Main.cost, Stage.cost, if_pos inside]
        omega
    | refuses refused =>
        simp only [State.cost, State.atMain, Main.cost, Stage.cost, if_pos inside]
        split <;> omega
    | @pushes later ran =>
        have cost : queueCost 0 program.worker later =
            queueCost 0 program.worker (queue program.worker) + _ := queueCost_push ran
        have message :
            messageCost (⟨handler.messageType, some ⟨program.main, data⟩⟩ : Message T) = 26 :=
          entryMessage_cost program.main (handler, data)
        simp only [State.cost, State.atMain, Main.cost, Stage.cost, if_pos inside,
          Function.update_self, Function.update_of_ne program.distinct]
        omega
    | @signals later ran =>
        have cost : queueCost 0 program.worker later ≤
            queueCost 0 program.worker (queue program.worker) + 0 + 4 := queueCost_signal ran
        simp only [State.cost, State.atMain, Main.cost, Stage.cost, if_pos inside,
          Function.update_self, Function.update_of_ne program.distinct]
        omega
    | unlocks =>
        simp only [State.cost, State.atMain, Main.cost, Stage.cost]
        split <;> omega

theorem mainStep_running_cost (once : tells (fun _ => 0) program.messages = 1) (inv : Inv program s)
    (running : s.main = .running) (moved : mainStep program s = some after) :
    after.cost program < s.cost program := by
  obtain ⟨thread, queue, mutex, handlers, main, worker, count, done, received, failed, erased⟩ := s
  have running : main = .running := running
  subst running
  obtain ⟨⟨middle, looped⟩, looping, rfl⟩ := Option.map_eq_some_iff.mp moved
  have looping := loopStep_moved looping
  cases looped with
  | returns =>
      cases looping with
      | returns idle =>
          simp only [State.cost, State.atMain, Main.cost]
          omega
  | goesOn =>
      obtain ⟨later, rfl, cost⟩ := looping.queueCost_goesOn 3
      have cost : queueCost 3 program.main later < queueCost 3 program.main (queue program.main) := cost
      simp only [State.cost, Function.update_self, Function.update_of_ne program.distinct.symm]
      omega
  | handles message =>
      obtain ⟨_, -, ⟨_, parts⟩, -⟩ := inv.mainQueue.handles_moved looping
      obtain ⟨-, own⟩ := inv.first_result once rfl parts
      have twelve : messageCost message = 12 := own ▸ result_cost program.worker
      obtain ⟨later, rfl, cost⟩ := looping.queueCost_handles 3
      have cost : queueCost 3 program.main later + messageCost message =
          queueCost 3 program.main (queue program.main) := cost
      simp only [State.cost, State.atMain, Main.cost, Function.update_self,
        Function.update_of_ne program.distinct.symm]
      omega

theorem mainStep_cost (once : tells (fun _ => 0) program.messages = 1) (inv : Inv program s)
    (moved : mainStep program s = some after) : after.cost program < s.cost program := by
  obtain ⟨thread, queue, mutex, handlers, main, worker, count, done, received, failed, erased⟩ := s
  cases main with
  | initThreadMessageQueue =>
      simp only [mainStep, Option.ite_none_left_eq_some] at moved
      obtain ⟨-, moved⟩ := moved
      obtain ⟨_, inside, rfl⟩ := Option.map_eq_some_iff.mp moved
      obtain ⟨later, ran, rfl⟩ := threadStep_eq_some inside
      have child := child_same ran (by simp)
      have created : later.created = thread.created := by
        cases ThreadStart.step_moved ran with
        | other => rfl
      simp only [State.cost, State.atMain, Main.cost, childCost_same child created]
      omega
  | registerHandler =>
      cases Option.some.inj moved
      simp only [State.cost, State.atMain, State.registerHandler, Main.cost]
      omega
  | start =>
      obtain ⟨_, inside, rfl⟩ := Option.map_eq_some_iff.mp moved
      obtain ⟨later, ran, rfl⟩ := threadStep_eq_some inside
      have start := startCost_le later
      have before : childCost worker thread = 13 := if_pos inv.thread.created
      have behind : childCost worker later = 13 := by
        have created : later.created = 1 := (inv.thread.start ran).created
        rw [childCost, created, if_neg Nat.one_ne_zero, inv.thread.start_child ran]
      simp only [State.cost, State.atMain, Main.cost, before, behind]
      omega
  | starting =>
      simp only [mainStep] at moved
      split at moved
      · rename_i waiting
        obtain ⟨later, ran, rfl⟩ := threadStep_eq_some moved
        have child := child_same ran (by simp)
        have created : later.created = thread.created :=
          (inv.thread.wait ran).created.trans inv.thread.created.symm
        have less : startCost later < startCost thread := startCost_wait ran
        simp only [State.cost, Main.cost, childCost_same child created]
        omega
      · rename_i parent
        obtain ⟨_, inside, rfl⟩ := Option.map_eq_some_iff.mp moved
        obtain ⟨later, ran, rfl⟩ := threadStep_eq_some inside
        have child := child_same ran (by simp)
        have started := inv.thread.startReturns ran
        have created : later.created = thread.created := started.created.trans inv.thread.created.symm
        have one : startCost thread = 1 := by
          rw [startCost]
          split
          · contradiction
          · rfl
        simp only [started.threadId rfl, State.cost, State.atMain, Main.cost,
          childCost_same child created, one, Stage.cost]
        split <;> omega
  | send workerThreadId index stage => exact mainStep_send_cost inv rfl moved
  | isDone =>
      cases Option.some.inj moved
      cases done <;> simp [State.cost, State.atMain, Main.cost]
  | getQueue =>
      simp only [mainStep, Option.ite_none_left_eq_some] at moved
      obtain ⟨-, moved⟩ := moved
      have registered := inv.thread.main_registered (by rintro ⟨⟩)
      rw [if_pos registered] at moved
      obtain ⟨_, inside, rfl⟩ := Option.map_eq_some_iff.mp moved
      obtain ⟨later, ran, rfl⟩ := queueStep_eq_some inside
      have cost : queueCost 3 program.main later + 3 ≤ queueCost 3 program.main (queue program.main) :=
        queueCost_call ran
      simp only [State.cost, State.atMain, Main.cost, Function.update_self,
        Function.update_of_ne program.distinct.symm]
      omega
  | running => exact mainStep_running_cost once inv rfl moved
  | handle message =>
      obtain ⟨notDone, rfl⟩ := inv.main
      have handler : handlers kMessageType3 = some .main := inv.mainHandler rfl
      simp only [mainStep, result, handler, Option.map_some] at moved
      cases Option.some.inj moved
      simp only [State.cost, State.atMain, Main.cost]
      omega
  | stop threadId =>
      simp only [mainStep, Option.ite_none_left_eq_some] at moved
      obtain ⟨-, moved⟩ := moved
      split at moved <;> cases Option.some.inj moved <;>
        simp only [State.cost, State.atMain, Main.cost] <;> omega
  | stopPush threadId =>
      obtain ⟨notDone, rfl⟩ := inv.main
      obtain ⟨_, inside, rfl⟩ := Option.map_eq_some_iff.mp moved
      obtain ⟨later, ran, rfl⟩ := queueStep_eq_some inside
      have cost : queueCost 0 program.worker later =
          queueCost 0 program.worker (queue program.worker) + _ := queueCost_push ran
      have exit : messageCost (⟨kAndroidLoopExit, none⟩ : Message T) = 1 := rfl
      simp only [State.cost, State.atMain, Main.cost, Function.update_self,
        Function.update_of_ne program.distinct]
      omega
  | stopSignal threadId =>
      obtain ⟨notDone, rfl⟩ := inv.main
      obtain ⟨_, inside, rfl⟩ := Option.map_eq_some_iff.mp moved
      obtain ⟨later, ran, rfl⟩ := queueStep_eq_some inside
      have cost : queueCost 0 program.worker later ≤
          queueCost 0 program.worker (queue program.worker) + 0 + 4 := queueCost_signal ran
      simp only [State.cost, State.atMain, Main.cost, Function.update_self,
        Function.update_of_ne program.distinct]
      omega
  | setDone =>
      cases Option.some.inj moved
      simp only [State.cost, State.atMain, Main.cost]
      omega
  | handled =>
      obtain ⟨_, inside, rfl⟩ := Option.map_eq_some_iff.mp moved
      obtain ⟨later, ran, rfl⟩ := queueStep_eq_some inside
      have cost : queueCost 3 program.main later = queueCost 3 program.main (queue program.main) :=
        queueCost_handlerReturns ran
      simp only [State.cost, State.atMain, Main.cost, Function.update_self,
        Function.update_of_ne program.distinct.symm]
      omega
  | join =>
      obtain ⟨_, inside, rfl⟩ := Option.map_eq_some_iff.mp moved
      obtain ⟨later, ran, rfl⟩ := threadStep_eq_some inside
      have child := child_same ran (by simp)
      have created : later.created = thread.created :=
        (inv.thread.join ran).created.trans inv.thread.created.symm
      simp only [State.cost, State.atMain, Main.cost, childCost_same child created]
      omega
  | joining =>
      have joins : thread.parent = .joining := of_decide_eq_true inv.thread.parent
      simp only [mainStep, joins] at moved
      obtain ⟨_, inside, rfl⟩ := Option.map_eq_some_iff.mp moved
      obtain ⟨later, ran, rfl⟩ := threadStep_eq_some inside
      have child := child_same ran (by simp)
      have created : later.created = thread.created :=
        (inv.thread.joinReturns ran).created.trans inv.thread.created.symm
      simp only [State.cost, State.atMain, Main.cost, childCost_same child created]
      omega
  | destroy =>
      obtain ⟨_, inside, rfl⟩ := Option.map_eq_some_iff.mp moved
      obtain ⟨later, ran, rfl⟩ := threadStep_eq_some inside
      have child := child_same ran (by simp)
      have created : later.created = thread.created :=
        (inv.thread.destroy ran).created.trans inv.thread.created.symm
      simp only [State.cost, State.atMain, Main.cost, childCost_same child created]
      omega
  | finished | failed => cases moved

omit [DecidableEq T] in
theorem childCost_run {worker : Worker T} {thread : ThreadStart.State T} (created : thread.created ≠ 0)
    (running : (thread.child 0).phase = .run) : childCost worker thread = worker.cost := by
  rw [childCost, if_neg created, running]

omit [DecidableEq T] in
theorem mainCost_le {thread later : ThreadStart.State T} {more : Nat}
    (start : startCost later ≤ startCost thread + more) (messages : Nat) (main : Main T) :
    main.cost messages later ≤ main.cost messages thread + more := by
  cases main <;> simp only [Main.cost] <;> omega

theorem startCost_child {thread later : ThreadStart.State T} {main : T}
    (moved : ThreadStart.step main thread (.child 0) = some later) :
    startCost later ≤ startCost thread + 1 ∧
      ((thread.child 0).phase ≠ .signal → startCost later = startCost thread) := by
  cases ThreadStart.step_moved moved with
  | child =>
      have parent := ThreadStart.childStep_parent thread main 0
      refine ⟨?_, fun kept => ?_⟩
      · rw [startCost, startCost, parent]
        split
        · split <;> split <;> omega
        · omega
      · rw [startCost, startCost, parent, ThreadStart.childStep_startedEvent main kept]

theorem child_cost (started : s.main.life.hasStarted = true) (inv : Inv program s)
    (alive : (s.thread.child 0).phase ≠ .terminated)
    (first : (s.thread.child 0).phase.hasSignalled = false → s.worker = .registerHandler1)
    (last : (s.thread.child 0).phase = .run → s.worker = .returned)
    (moved : s.threadStep program (.child 0) = some after) : after.cost program < s.cost program := by
  obtain ⟨later, ran, rfl⟩ := threadStep_eq_some moved
  obtain ⟨kept, next⟩ := inv.thread.child started ran
  have created : later.created = s.thread.created := kept.created.trans inv.thread.created.symm
  have positive : s.thread.created ≠ 0 := Nat.ne_of_gt (inv.thread.child_created started)
  obtain ⟨start, same⟩ := startCost_child ran
  have more := mainCost_le start program.messages.length s.main
  simp only [State.cost]
  cases phase : (s.thread.child 0).phase with
  | terminated => exact absurd phase alive
  | signal =>
      rw [phase] at next first
      rw [childCost, childCost, created, if_neg positive, if_neg positive, phase, next, first rfl]
      simp only [ChildPhase.next, Worker.cost]
      omega
  | run =>
      rw [phase] at next last same
      have equal := mainCost_le (Nat.le_of_eq (same (by rintro ⟨⟩)) : _ ≤ startCost s.thread + 0)
        program.messages.length s.main
      rw [childCost, childCost, created, if_neg positive, if_neg positive, phase, next, last rfl]
      simp only [ChildPhase.next, Worker.cost]
      omega
  | _ =>
      rw [phase] at next same
      have equal := mainCost_le (Nat.le_of_eq (same (by rintro ⟨⟩)) : _ ≤ startCost s.thread + 0)
        program.messages.length s.main
      rw [childCost, childCost, created, if_neg positive, if_neg positive, phase, next]
      simp only [ChildPhase.next]
      omega

theorem run_running_cost (inRun : (s.thread.child 0).phase = .run) (created : s.thread.created ≠ 0)
    (inv : Inv program s) (running : s.worker = .running) (moved : run program s = some after) :
    after.cost program < s.cost program := by
  obtain ⟨thread, queue, mutex, handlers, main, worker, count, done, received, failed, erased⟩ := s
  have child (worker : Worker T) : childCost worker thread = worker.cost := childCost_run created inRun
  have running : worker = .running := running
  subst running
  obtain ⟨⟨middle, looped⟩, looping, rfl⟩ := Option.map_eq_some_iff.mp moved
  have looping := loopStep_moved looping
  cases looped with
  | returns =>
      cases looping with
      | returns idle =>
          simp only [State.cost, State.atWorker, child, Worker.cost]
          omega
  | goesOn =>
      obtain ⟨later, rfl, cost⟩ := looping.queueCost_goesOn 0
      have cost : queueCost 0 program.worker later < queueCost 0 program.worker (queue program.worker) :=
        cost
      simp only [State.cost, Function.update_self, Function.update_of_ne program.distinct]
      omega
  | handles message =>
      obtain ⟨_, -, ⟨_, parts⟩, plain, -⟩ := inv.workerQueue.handles_moved looping
      have dear : messageCost message = 26 := by
        obtain ⟨pending, own, -⟩ := Inv.next_received parts rfl plain
        cases pending with
        | nil => contradiction
        | cons entry rest => rw [(List.cons.inj own).1, entryMessage_cost]
      obtain ⟨later, rfl, cost⟩ := looping.queueCost_handles 0
      have cost : queueCost 0 program.worker later + messageCost message =
          queueCost 0 program.worker (queue program.worker) := cost
      simp only [State.cost, State.atWorker, child, Worker.cost, Function.update_self,
        Function.update_of_ne program.distinct]
      omega

theorem run_send_cost (inRun : (s.thread.child 0).phase = .run) (created : s.thread.created ≠ 0)
    (inv : Inv program s) {data : Int32} {stage : Stage} (sending : s.worker = .send data stage)
    (moved : run program s = some after) : after.cost program < s.cost program := by
  obtain ⟨thread, queue, mutex, handlers, main, worker, count, done, received, failed, erased⟩ := s
  have child (worker : Worker T) : childCost worker thread = worker.cost := childCost_run created inRun
  have sending : worker = .send data stage := sending
  subst sending
  obtain rfl : data = 600 := inv.worker
  obtain ⟨⟨middle, stage'⟩, sent, rfl⟩ := Option.map_eq_some_iff.mp moved
  cases sendStep_moved sent with
  | finds | refuses =>
      simp only [State.cost, State.atWorker, child, Worker.cost, Stage.cost]
      omega
  | @pushes later ran =>
      have cost : queueCost 3 program.main later =
          queueCost 3 program.main (queue program.main) + 12 := queueCost_push ran
      simp only [State.cost, State.atWorker, child, Worker.cost, Stage.cost, Function.update_self,
        Function.update_of_ne program.distinct.symm]
      omega
  | @signals later ran =>
      have cost : queueCost 3 program.main later ≤
          queueCost 3 program.main (queue program.main) + 3 + 4 := queueCost_signal ran
      simp only [State.cost, State.atWorker, child, Worker.cost, Stage.cost, Function.update_self,
        Function.update_of_ne program.distinct.symm]
      omega
  | unlocks =>
      simp only [State.cost, State.atWorker, child, Worker.cost, Stage.cost]
      omega

theorem run_cost (running : (s.thread.child 0).phase = .run) (created : s.thread.created ≠ 0)
    (inv : Inv program s) (moved : run program s = some after) : after.cost program < s.cost program := by
  obtain ⟨thread, queue, mutex, handlers, main, worker, count, done, received, failed, erased⟩ := s
  have child (worker : Worker T) : childCost worker thread = worker.cost := childCost_run created running
  cases worker with
  | registerHandler1 | registerHandler2 =>
      cases Option.some.inj moved
      simp only [State.cost, State.atWorker, State.registerHandler, child, Worker.cost]
      omega
  | getQueue =>
      simp only [run, Option.ite_none_left_eq_some] at moved
      obtain ⟨-, moved⟩ := moved
      split at moved
      · obtain ⟨_, inside, rfl⟩ := Option.map_eq_some_iff.mp moved
        obtain ⟨later, ran, rfl⟩ := queueStep_eq_some inside
        have cost : queueCost 0 program.worker later + 0 ≤
            queueCost 0 program.worker (queue program.worker) := queueCost_call ran
        simp only [State.cost, State.atWorker, child, Worker.cost, Function.update_self,
          Function.update_of_ne program.distinct]
        omega
      · cases Option.some.inj moved
        simp only [State.cost, State.atWorker, child, Worker.cost]
        omega
  | running => exact run_running_cost running created inv rfl moved
  | handle message =>
      simp only [run] at moved
      split at moved
      · cases Option.some.inj moved
        simp only [State.cost, State.atWorker, child, Worker.cost]
        omega
      · contradiction
      · split at moved <;> cases Option.some.inj moved
        · simp only [State.cost, State.atWorker, child, Worker.cost]
          omega
        · simp only [State.cost, State.atWorker, child]
          split <;> simp only [Worker.cost, Stage.cost] <;> omega
  | send data stage => exact run_send_cost running created inv rfl moved
  | handled =>
      obtain ⟨_, inside, rfl⟩ := Option.map_eq_some_iff.mp moved
      obtain ⟨later, ran, rfl⟩ := queueStep_eq_some inside
      have cost : queueCost 0 program.worker later = queueCost 0 program.worker (queue program.worker) :=
        queueCost_handlerReturns ran
      simp only [State.cost, State.atWorker, child, Worker.cost, Function.update_self,
        Function.update_of_ne program.distinct]
      omega
  | returned =>
      have started := inv.started created
      refine child_cost started inv ?_ (fun early => ?_) (fun _ => rfl) moved
      · rw [running]
        rintro ⟨⟩
      · rw [running] at early
        contradiction
  | failed => cases moved

theorem workerStep_cost (inv : Inv program s) (moved : workerStep program s = some after) :
    after.cost program < s.cost program := by
  simp only [workerStep, Option.ite_none_left_eq_some] at moved
  obtain ⟨created, moved⟩ := moved
  have started := inv.started created
  have fits := inv.phase started
  have first (early : (s.thread.child 0).phase.hasSignalled = false) :
      s.worker = .registerHandler1 := by
    cases worker : s.worker with
    | registerHandler1 => rfl
    | returned =>
        rw [worker] at fits
        cases early.symm.trans fits
    | _ =>
        rw [worker] at fits
        rw [of_decide_eq_true fits] at early
        contradiction
  cases phase : (s.thread.child 0).phase with
  | initThreadMessageQueue | threadEndHook =>
      simp only [phase, Option.ite_none_left_eq_some] at moved
      exact child_cost started inv (by rw [phase]; rintro ⟨⟩) first (by rw [phase]; rintro ⟨⟩) moved.2
  | run =>
      rw [phase] at moved
      exact run_cost phase created inv moved
  | terminated =>
      rw [phase] at moved
      contradiction
  | setThreadId | setRunning | signal | clearRunning | terminate =>
      rw [phase] at moved
      exact child_cost started inv (by rw [phase]; rintro ⟨⟩) first (by rw [phase]; rintro ⟨⟩) moved

end ThreadIpc.TestThreadMessageQueue

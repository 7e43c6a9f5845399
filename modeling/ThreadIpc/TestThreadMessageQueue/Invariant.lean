import Mathlib.Data.List.Infix
import ThreadIpc.TestThreadMessageQueue.Machines

/-!
# What holds between the two threads

Where each thread is says what the queues hold, which handlers are registered and whose the mutex is.
-/

namespace ThreadIpc.TestThreadMessageQueue
open ThreadQueue (OwnerCall OwnerState Posted)
open ThreadStart (ChildPhase)
open AsyncRouter (kAndroidLoopExit androidLoopStart)

/-- `count_` of each handler behind the messages. -/
def counts (count : Background → Int32) : List (Background × Int32) → Background → Int32
  | [] => count
  | (handler, data) :: rest =>
      counts (Function.update count handler (count handler + data)) rest

def tells (count : Background → Int32) : List (Background × Int32) → Nat
  | [] => 0
  | (handler, data) :: rest => (if count handler + data = 600 then 1 else 0) +
      tells (Function.update count handler (count handler + data)) rest

theorem counts_concat (count : Background → Int32) (messages : List (Background × Int32))
    (handler : Background) (data : Int32) : counts count (messages ++ [(handler, data)]) =
      Function.update (counts count messages) handler (counts count messages handler + data) := by
  induction messages generalizing count with
  | nil => rfl
  | cons entry rest ih => exact ih _

theorem tells_append (count : Background → Int32) (messages more : List (Background × Int32)) :
    tells count (messages ++ more) = tells count messages + tells (counts count messages) more := by
  induction messages generalizing count with
  | nil => exact (Nat.zero_add _).symm
  | cons entry rest ih =>
      rw [List.cons_append, tells, ih, tells, counts, Nat.add_assoc]

theorem tells_concat (count : Background → Int32) (messages : List (Background × Int32))
    (handler : Background) (data : Int32) : tells count (messages ++ [(handler, data)]) =
      tells count messages + if counts count messages handler + data = 600 then 1 else 0 :=
  tells_append count messages [(handler, data)]

/-- What the handler has been given, in numbers of any size. -/
def total (handler : Background) : List (Background × Int32) → Int
  | [] => 0
  | (own, data) :: rest => (if own = handler then data.toInt else 0) + total handler rest

theorem total_concat (handler own : Background) (messages : List (Background × Int32)) (data : Int32) :
    total handler (messages ++ [(own, data)]) =
      total handler messages + if own = handler then data.toInt else 0 := by
  induction messages with
  | nil => exact Int.add_comm _ _
  | cons entry rest ih => rw [List.cons_append, total, ih, total, Int.add_assoc]

/-- No count leaves the range of `int`. -/
def Fits (messages : List (Background × Int32)) : Prop :=
  ∀ received ∈ messages.inits, ∀ handler ∈ [Background.handler1, .handler2],
    Int32.minValue.toInt ≤ total handler received ∧ total handler received ≤ Int32.maxValue.toInt

instance (messages : List (Background × Int32)) : Decidable (Fits messages) :=
  inferInstanceAs (Decidable (∀ received ∈ messages.inits, ∀ handler ∈ [Background.handler1, .handler2],
    Int32.minValue.toInt ≤ total handler received ∧ total handler received ≤ Int32.maxValue.toInt))

theorem toInt_counts {messages received : List (Background × Int32)} (fits : Fits messages)
    (inside : received <+: messages) (handler : Background) :
    (counts (fun _ => 0) received handler).toInt = total handler received := by
  induction received using List.reverseRecOn with
  | nil => rfl
  | append_singleton received entry ih =>
      obtain ⟨own, data⟩ := entry
      have before := ih ((List.prefix_append ..).trans inside)
      have range := fits _ ((List.mem_inits ..).mpr inside) handler (by cases handler <;> simp)
      rw [counts_concat]
      rw [total_concat, ← before] at range ⊢
      by_cases same : own = handler
      · rw [if_pos same] at range ⊢
        subst same
        obtain ⟨low, high⟩ := range
        have low : -2147483648 ≤ _ := low
        have high : _ ≤ (2147483647 : Int) := high
        rw [Function.update_self, Int32.toInt_add, Int.bmod_eq_of_le (by omega) (by omega)]
      · rw [if_neg same, Int.add_zero, Function.update_of_ne fun equal => same equal.symm]

variable {T : Type}

def Stage.hasPushed : Stage → Bool
  | .find | .push => false
  | .signal | .unlock => true

def Stage.locks : Stage → Bool
  | .find => false
  | _ => true

namespace Main

def sent (messages : List (Background × Int32)) : Main T → Nat
  | .initThreadMessageQueue | .registerHandler | .start | .starting => 0
  | .send _ index stage => if stage.hasPushed then index + 1 else index
  | _ => messages.length

def signalling : Main T → Bool
  | .send _ _ .signal | .stopSignal _ => true
  | _ => false

def hasStopped (done : Bool) : Main T → Bool
  | .setDone => true
  | _ => done

def exitSent (done : Bool) : Main T → Bool
  | .stopSignal _ | .setDone => true
  | _ => done

def isTold (done : Bool) : Main T → Bool
  | .handle _ | .stop _ | .stopPush _ | .stopSignal _ | .setDone | .handled => true
  | _ => done

def loop : Main T → Loop
  | .running => .running
  | .handle _ | .stop _ | .stopPush _ | .stopSignal _ | .setDone | .handled => .handling
  | _ => .outside

def hasRegistered : Main T → Bool
  | .initThreadMessageQueue | .registerHandler => false
  | _ => true

def locks : Main T → Bool
  | .send _ _ stage => stage.locks
  | _ => false

end Main

namespace Worker

def loop : Worker T → Loop
  | .running => .running
  | .handle _ | .send _ _ | .handled => .handling
  | .returned => .left
  | _ => .outside

def signalling : Worker T → Bool
  | .send _ .signal => true
  | _ => false

def untold : Worker T → Nat
  | .send _ stage => if stage.hasPushed then 0 else 1
  | _ => 0

def pending : Worker T → List (Message T)
  | .handle message => [message]
  | _ => []

def locks : Worker T → Bool
  | .send _ stage => stage.locks
  | _ => false

def hasRegistered (worker : Worker T) : Background → Bool
  | .handler1 => match worker with
      | .registerHandler1 => false
      | _ => true
  | .handler2 => match worker with
      | .registerHandler1 | .registerHandler2 => false
      | _ => true

def fits : Worker T → ChildPhase → Bool
  | .registerHandler1, phase => !phase.hasSignalled || phase = .run
  | .returned, phase => phase.hasSignalled
  | _, phase => phase = .run

end Worker

def entryMessage (main : T) (entry : Background × Int32) : Message T :=
  ⟨entry.1.messageType, some ⟨main, entry.2⟩⟩

def result (worker : T) : Message T := ⟨kMessageType3, some ⟨worker, 600⟩⟩

def Main.fits (program : Program T) (done : Bool) : Main T → Prop
  | .send workerThreadId index stage => done = false ∧ workerThreadId = program.worker ∧
      (index < program.messages.length ∨ index = program.messages.length ∧ stage = .find)
  | .handle message => done = false ∧ message = result program.worker
  | .stop threadId | .stopPush threadId | .stopSignal threadId =>
      done = false ∧ threadId = program.worker
  | .running | .isDone => True
  | .handled | .join | .joining | .destroy | .finished => done = true
  | .failed => False
  | _ => done = false

def Worker.sane : Worker T → Prop
  | .send data _ => data = 600
  | .failed => False
  | _ => True

variable [DecidableEq T] (program : Program T) (s : State T)

def State.pushedToWorker : List (Message T) :=
  (program.messages.map (entryMessage program.main)).take (s.main.sent program.messages) ++
    if s.main.exitSent s.done then [⟨kAndroidLoopExit, none⟩] else []

def State.dispatchedByWorker : List (Message T) :=
  s.received.map (entryMessage program.main) ++ s.worker.pending

def State.pushedToMain : List (Message T) :=
  List.replicate (tells (fun _ => 0) s.received - s.worker.untold) (result program.worker)

def State.dispatchedByMain : List (Message T) :=
  if s.main.isTold s.done then [result program.worker] else []

structure Inv : Prop where
  thread : ThreadInv program s.thread s.main.life
  workerQueue : QueueInv program.worker program.main androidLoopStart s.main.signalling
    (s.pushedToWorker program) (s.dispatchedByWorker program) s.worker.loop (s.queue program.worker)
  mainQueue : QueueInv program.main program.worker .runOnce s.worker.signalling
    (s.pushedToMain program) (s.dispatchedByMain program) s.main.loop (s.queue program.main)
  main : s.main.fits program s.done
  worker : s.worker.sane
  phase : s.main.life.hasStarted = true → s.worker.fits (s.thread.child 0).phase = true
  absent : s.main.life.hasStarted = false → s.worker = .registerHandler1
  received : ∃ pending, s.worker.pending = pending.map (entryMessage program.main) ∧
    s.received ++ pending <+: program.messages
  count : s.count = counts (fun _ => 0) s.received
  untold : s.worker.untold ≤ tells (fun _ => 0) s.received
  mainHandler : s.main.hasRegistered = true → s.handlers kMessageType3 = some .main
  workerHandlers : ∀ handler, s.worker.hasRegistered handler = true →
    s.handlers handler.messageType = some (.background handler)
  mutex : ∀ holder, s.queueMutex = some holder → s.main.locks = true ∨ s.worker.locks = true
  finishing : s.main.loop = .running → s.done = true → (s.queue program.main).owner = .idle ∨
    ∃ call batch, (s.queue program.main).owner = .dispatching call batch
  assertFailed : s.assertFailed = false
  usedAfterErase : s.usedAfterErase = true → s.main.hasStopped s.done = true

omit [DecidableEq T] in
theorem entryMessage_injective (main : T) : Function.Injective (entryMessage main) := by
  rintro ⟨handler, data⟩ ⟨handler', data'⟩ same
  simp only [entryMessage, ThreadQueue.Message.mk.injEq, Option.some.injEq, TestMessage.mk.injEq,
    true_and] at same
  obtain ⟨types, rfl⟩ := same
  cases handler <;> cases handler' <;> first | rfl | exact absurd types (by decide)

theorem Inv.init (program : Program T) : Inv program (.init program) where
  thread := .init program
  workerQueue := .init program.worker program.main _
  mainQueue := .init program.main program.worker _
  main := rfl
  worker := trivial
  phase := nofun
  absent := fun _ => rfl
  received := ⟨[], rfl, List.nil_prefix⟩
  count := rfl
  untold := Nat.zero_le _
  mainHandler := nofun
  workerHandlers := by
    intro handler registered
    cases handler <;> contradiction
  mutex := nofun
  finishing := nofun
  assertFailed := rfl
  usedAfterErase := nofun

variable {program} {s} {after : State T}

section Moves

theorem child_same {thread later : ThreadStart.State T} {action : ThreadStart.Action T} {main : T}
    (moved : ThreadStart.step main thread action = some later)
    (elsewhere : ∀ create number, action ≠ .start create ∧ action ≠ .child number) :
    later.child = thread.child := by
  cases ThreadStart.step_moved moved with
  | start | startFails => exact absurd rfl (elsewhere _ 0).1
  | child => exact absurd rfl (elsewhere none _).2
  | startReturns => exact (ThreadStart.startReturns_children thread).1
  | join => exact (ThreadStart.join_children thread).1
  | waitLeft | waitStays | spuriousWakeup | joinReturns | destroy | other => rfl

theorem threadStep_eq_some {action : ThreadStart.Action T}
    (moved : s.threadStep program action = some after) : ∃ thread,
      ThreadStart.step program.main s.thread action = some thread ∧ after = { s with thread } := by
  obtain ⟨thread, ran, rfl⟩ := Option.map_eq_some_iff.mp moved
  exact ⟨thread, ran, rfl⟩

theorem queueStep_eq_some {owner : T} {action : ThreadQueue.Action T (Option (TestMessage T))}
    (moved : s.queueStep owner action = some after) : ∃ queue,
      ThreadQueue.step owner (s.queue owner) action = some queue ∧
      after = { s with queue := Function.update s.queue owner queue } := by
  obtain ⟨queue, ran, rfl⟩ := Option.map_eq_some_iff.mp moved
  exact ⟨queue, ran, rfl⟩

variable {owner sender other : T} {call : OwnerCall} {signalling : Bool} {pushed dispatched : List (Message T)}
  {loop : Loop} {queues : T → ThreadQueue.State T (Option (TestMessage T))}
  {queue : ThreadQueue.State T (Option (TestMessage T))}

theorem QueueInv.of_eq (inv : QueueInv owner sender call signalling pushed dispatched loop queue)
    {pushed' dispatched' : List (Message T)} (pushes : pushed = pushed')
    (dispatches : dispatched = dispatched') :
    QueueInv owner sender call signalling pushed' dispatched' loop queue :=
  pushes ▸ dispatches ▸ inv

theorem QueueInv.here (inv : QueueInv owner sender call signalling pushed dispatched loop queue) :
    QueueInv owner sender call signalling pushed dispatched loop
      (Function.update queues owner queue owner) := by
  rwa [Function.update_self]

theorem QueueInv.elsewhere
    (inv : QueueInv owner sender call signalling pushed dispatched loop (queues owner))
    (different : owner ≠ other) : QueueInv owner sender call signalling pushed dispatched loop
      (Function.update queues other queue owner) := by
  rwa [Function.update_of_ne different]

inductive SendMoved (s : State T) (sender threadId : T) (message : Message T) :
    Stage → State T → Option Stage → Prop
  | finds (accepted : s.thread.send threadId = true) :
      SendMoved s sender threadId message .find { s with queueMutex := some sender } (some .push)
  | refuses (refused : ¬s.thread.send threadId = true) :
      SendMoved s sender threadId message .find s none
  | pushes {queue : ThreadQueue.State T (Option (TestMessage T))}
      (ran : ThreadQueue.step threadId (s.queue threadId) (.push sender message) = some queue) :
      SendMoved s sender threadId message .push { s with
        usedAfterErase := s.usedAfterErase || !s.thread.messageQueues threadId
        queue := Function.update s.queue threadId queue } (some .signal)
  | signals {queue : ThreadQueue.State T (Option (TestMessage T))}
      (ran : ThreadQueue.step threadId (s.queue threadId) (.signal sender) = some queue) :
      SendMoved s sender threadId message .signal { s with
        usedAfterErase := s.usedAfterErase || !s.thread.messageQueues threadId
        queue := Function.update s.queue threadId queue } (some .unlock)
  | unlocks : SendMoved s sender threadId message .unlock { s with queueMutex := none } none

theorem sendStep_moved {threadId : T} {message : Message T} {stage : Stage} {next : Option Stage}
    (moved : s.sendStep sender threadId message stage = some (after, next)) :
    SendMoved s sender threadId message stage after next := by
  cases stage with
  | find =>
      simp only [State.sendStep, Option.ite_none_left_eq_some] at moved
      obtain ⟨-, moved⟩ := moved
      split at moved
      · rename_i accepted
        cases Option.some.inj moved
        exact .finds accepted
      · rename_i refused
        cases Option.some.inj moved
        exact .refuses refused
  | push =>
      obtain ⟨_, inside, same⟩ := Option.map_eq_some_iff.mp moved
      obtain ⟨queue, ran, rfl⟩ := queueStep_eq_some inside
      cases same
      exact .pushes ran
  | signal =>
      obtain ⟨_, inside, same⟩ := Option.map_eq_some_iff.mp moved
      obtain ⟨queue, ran, rfl⟩ := queueStep_eq_some inside
      cases same
      exact .signals ran
  | unlock =>
      cases Option.some.inj moved
      exact .unlocks

inductive LoopMoved (s : State T) (owner : T) : State T → Looped T → Prop
  | returns (idle : (s.queue owner).owner = .idle) : LoopMoved s owner s .returns
  | waits {call : OwnerCall} {queue : ThreadQueue.State T (Option (TestMessage T))}
      (waiting : (s.queue owner).owner = .waiting call)
      (ran : ThreadQueue.step owner (s.queue owner) .wait = some queue) :
      LoopMoved s owner { s with queue := Function.update s.queue owner queue } .goesOn
  | pops {call : OwnerCall} {queue : ThreadQueue.State T (Option (TestMessage T))}
      (popping : (s.queue owner).owner = .popping call)
      (ran : ThreadQueue.step owner (s.queue owner) .popMessages = some queue) :
      LoopMoved s owner { s with queue := Function.update s.queue owner queue } .goesOn
  | empties {call : OwnerCall} {queue : ThreadQueue.State T (Option (TestMessage T))}
      (dispatching : (s.queue owner).owner = .dispatching call [])
      (ran : ThreadQueue.step owner (s.queue owner) .takeFront = some queue) :
      LoopMoved s owner { s with queue := Function.update s.queue owner queue } .goesOn
  | exits {call : OwnerCall} {queue : ThreadQueue.State T (Option (TestMessage T))}
      {front : Posted T (Option (TestMessage T))} {rest : List (Posted T (Option (TestMessage T)))}
      (dispatching : (s.queue owner).owner = .dispatching call (front :: rest))
      (exit : call = .getAndDispatchMessages front.message.messageType)
      (ran : ThreadQueue.step owner (s.queue owner) .takeFront = some queue) :
      LoopMoved s owner { s with queue := Function.update s.queue owner queue } .goesOn
  | handles {call : OwnerCall} {queue : ThreadQueue.State T (Option (TestMessage T))}
      {front : Posted T (Option (TestMessage T))} {rest : List (Posted T (Option (TestMessage T)))}
      (dispatching : (s.queue owner).owner = .dispatching call (front :: rest))
      (plain : call ≠ .getAndDispatchMessages front.message.messageType)
      (ran : ThreadQueue.step owner (s.queue owner) .takeFront = some queue) :
      LoopMoved s owner { s with queue := Function.update s.queue owner queue }
        (.handles front.message)

theorem loopStep_moved {looped : Looped T} (moved : loopStep s owner = some (after, looped)) :
    LoopMoved s owner after looped := by
  simp only [loopStep] at moved
  split at moved
  · rename_i idle
    cases Option.some.inj moved
    exact .returns idle
  · rename_i call waiting
    obtain ⟨_, inside, same⟩ := Option.map_eq_some_iff.mp moved
    obtain ⟨queue, ran, rfl⟩ := queueStep_eq_some inside
    cases same
    exact .waits waiting ran
  · rename_i call popping
    obtain ⟨_, inside, same⟩ := Option.map_eq_some_iff.mp moved
    obtain ⟨queue, ran, rfl⟩ := queueStep_eq_some inside
    cases same
    exact .pops popping ran
  · rename_i call batch dispatching
    obtain ⟨_, inside, same⟩ := Option.map_eq_some_iff.mp moved
    obtain ⟨queue, ran, rfl⟩ := queueStep_eq_some inside
    cases batch with
    | nil =>
        cases same
        exact .empties dispatching ran
    | cons front rest =>
        by_cases exit : call = .getAndDispatchMessages front.message.messageType
        · simp only [if_pos exit] at same
          cases same
          exact .exits dispatching exit ran
        · simp only [if_neg exit] at same
          cases same
          exact .handles dispatching exit ran
  · cases moved

theorem QueueInv.goesOn_moved
    (inv : QueueInv owner sender call signalling pushed dispatched .running (s.queue owner))
    (moved : LoopMoved s owner after .goesOn) : ∃ queue,
      after = { s with queue := Function.update s.queue owner queue } ∧
      QueueInv owner sender call signalling pushed dispatched .running queue := by
  cases moved with
  | waits waiting ran => exact ⟨_, rfl, inv.wait ran⟩
  | pops popping ran => exact ⟨_, rfl, inv.popMessages ran⟩
  | empties dispatching ran => exact ⟨_, rfl, inv.takeFront dispatching ran⟩
  | exits dispatching exit ran =>
      obtain ⟨-, taken⟩ := inv.takeFront dispatching ran
      rw [if_pos exit] at taken
      exact ⟨_, rfl, taken⟩

theorem QueueInv.handles_moved {message : Message T}
    (inv : QueueInv owner sender call signalling pushed dispatched .running (s.queue owner))
    (moved : LoopMoved s owner after (.handles message)) : ∃ queue,
      after = { s with queue := Function.update s.queue owner queue } ∧
      (∃ later, pushed = dispatched ++ message :: later) ∧
      call ≠ .getAndDispatchMessages message.messageType ∧
      QueueInv owner sender call signalling pushed (dispatched ++ [message]) .handling queue := by
  cases moved with
  | handles dispatching plain ran =>
      obtain ⟨parts, taken⟩ := inv.takeFront dispatching ran
      rw [if_neg plain] at taken
      have same := inv.calls _ (congrArg OwnerState.call? dispatching)
      exact ⟨_, rfl, parts, same ▸ plain, taken⟩

theorem LoopMoved.finishing (moved : LoopMoved s owner after .goesOn)
    (calls : ∀ current, (s.queue owner).owner.call? = some current → current = .runOnce)
    (before : (s.queue owner).owner = .idle ∨
      ∃ call batch, (s.queue owner).owner = .dispatching call batch) :
    (after.queue owner).owner = .idle := by
  cases moved with
  | waits waiting ran =>
      rcases before with idle | ⟨_, _, there⟩
      · cases idle.symm.trans waiting
      · cases there.symm.trans waiting
  | pops popping ran =>
      rcases before with idle | ⟨_, _, there⟩
      · cases idle.symm.trans popping
      · cases there.symm.trans popping
  | empties dispatching ran =>
      obtain rfl := calls _ (congrArg OwnerState.call? dispatching)
      cases ThreadQueue.step_moved ran with
      | takeFront there =>
          cases dispatching.symm.trans there
          exact congrArg _ (Function.update_self ..)
  | exits dispatching exit ran =>
      cases (calls _ (congrArg OwnerState.call? dispatching)).symm.trans exit

end Moves

omit [DecidableEq T] in
theorem entryMessage_ne_exit (main : T) (entry : Background × Int32) :
    kAndroidLoopExit ≠ (entryMessage main entry).messageType := by
  obtain ⟨handler, data⟩ := entry
  cases handler
  · exact (by decide : (3 : Int32) ≠ 100)
  · exact (by decide : (3 : Int32) ≠ 101)

namespace Inv

theorem not_exited (inv : Inv program s) (running : s.main.exitSent s.done = false) :
    (s.queue program.worker).exited = false := by
  by_contra exited
  obtain ⟨-, message, later, parts, exit⟩ := inv.workerQueue.exited (by simpa using exited)
  have sent : message ∈ s.pushedToWorker program := by
    rw [parts]
    exact List.mem_append_right _ List.mem_cons_self
  rw [State.pushedToWorker, running, if_neg Bool.false_ne_true, List.append_nil] at sent
  obtain ⟨entry, -, rfl⟩ := List.mem_map.mp (List.mem_of_mem_take sent)
  exact entryMessage_ne_exit program.main entry (OwnerCall.getAndDispatchMessages.inj exit)

theorem not_returned (inv : Inv program s) (running : s.main.exitSent s.done = false) :
    s.worker ≠ .returned := by
  intro returned
  have left := inv.workerQueue.owner
  rw [returned] at left
  exact absurd ((inv.not_exited running).symm.trans left.2) nofun

theorem signalled (inv : Inv program s) (started : s.main.life = .started) :
    (s.thread.child 0).phase.hasSignalled = true := by
  have parent := inv.thread.parent
  have created := inv.thread.child_created (started ▸ rfl)
  rcases inv.thread.handshake.signalled 0 created with signalled | ⟨-, waiting⟩
  · exact signalled
  · rw [started, waiting] at parent
    contradiction

theorem worker_registered (inv : Inv program s) (started : s.main.life = .started)
    (running : s.main.exitSent s.done = false) : s.thread.messageQueues program.worker = true := by
  apply inv.thread.worker_registered.mpr
  have fits := inv.phase (started ▸ rfl)
  have signalled := inv.signalled started
  have inRun : (s.thread.child 0).phase = .run := by
    cases worker : s.worker with
    | returned => exact absurd worker (inv.not_returned running)
    | registerHandler1 =>
        rw [worker] at fits
        simpa [Worker.fits, signalled] using fits
    | _ =>
        rw [worker] at fits
        exact of_decide_eq_true fits
  rw [inRun]
  rfl

theorem not_erased (inv : Inv program s) (before : s.main.hasStopped s.done = false) :
    s.usedAfterErase = false := by
  by_contra erased
  exact absurd (before.symm.trans (inv.usedAfterErase (by simpa using erased))) nofun

theorem told_le (once : tells (fun _ => 0) program.messages = 1) (inv : Inv program s) :
    tells (fun _ => 0) s.received ≤ 1 := by
  obtain ⟨pending, -, more, all⟩ := inv.received
  rw [← once, ← all, List.append_assoc, tells_append]
  exact Nat.le_add_right ..

theorem first_result (once : tells (fun _ => 0) program.messages = 1) (inv : Inv program s)
    (running : s.main.loop = .running) {message : Message T} {later : List (Message T)}
    (parts : s.pushedToMain program = s.dispatchedByMain program ++ message :: later) :
    s.done = false ∧ message = result program.worker := by
  have least := inv.told_le once
  rw [State.pushedToMain] at parts
  have member : message ∈ List.replicate (tells (fun _ => 0) s.received - s.worker.untold)
      (result program.worker) := by
    rw [parts]
    exact List.mem_append_right _ List.mem_cons_self
  refine ⟨?_, List.eq_of_mem_replicate member⟩
  have size := congrArg List.length parts
  rw [List.length_replicate, List.length_append, List.length_cons] at size
  by_contra finished
  have told : s.main.isTold s.done = true := by
    have finished : s.done = true := by simpa using finished
    cases main : s.main <;> rw [main] at running <;> first | contradiction | exact finished
  rw [State.dispatchedByMain, if_pos told, List.length_singleton] at size
  omega

end Inv

end ThreadIpc.TestThreadMessageQueue

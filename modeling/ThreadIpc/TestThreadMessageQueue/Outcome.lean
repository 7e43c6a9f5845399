import ThreadIpc.TestThreadMessageQueue.Termination

namespace ThreadIpc.TestThreadMessageQueue
open ThreadQueue (OwnerCall OwnerState Posted reached_wakeupInv)
open ThreadStart (ChildPhase)
open AsyncRouter (kAndroidLoopExit androidLoopStart)

variable {T : Type} [DecidableEq T] {program : Program T} {s after : State T}

section Enabled
variable {owner sender : T} {call : OwnerCall} {signalling : Bool} {pushed dispatched : List (Message T)}
  {loop : Loop} {queue : ThreadQueue.State T (Option (TestMessage T))}

namespace QueueInv

theorem push_enabled (inv : QueueInv owner sender call false pushed dispatched loop queue)
    (apart : sender ≠ owner) (message : Message T) :
    (ThreadQueue.step owner queue (.push sender message)).isSome = true := by
  have may : queue.maySend owner sender = true := by
    simp [ThreadQueue.State.maySend, inv.idle sender, apart]
  rw [ThreadQueue.step, if_pos may]
  rfl

theorem signal_enabled (inv : QueueInv owner sender call true pushed dispatched loop queue) :
    (ThreadQueue.step owner queue (.signal sender)).isSome = true := by
  rw [ThreadQueue.step, if_pos ((inv.sending sender).mpr ⟨rfl, rfl⟩)]
  rfl

theorem owner_idle (inv : QueueInv owner sender call signalling pushed dispatched loop queue)
    (apart : owner ≠ sender) : queue.sender owner = .idle := by
  cases state : queue.sender owner with
  | idle => rfl
  | pushed => exact absurd ((inv.sending owner).mp state).1 apart

theorem call_enabled (inv : QueueInv owner sender call signalling pushed dispatched .outside queue)
    (apart : owner ≠ sender) (call : OwnerCall) :
    (ThreadQueue.step owner queue (.call call)).isSome = true := by
  rw [ThreadQueue.step, inv.owner.1]
  exact (congrArg Option.isSome (if_pos (inv.owner_idle apart))).trans rfl

theorem handlerReturns_enabled
    (inv : QueueInv owner sender call signalling pushed dispatched .handling queue)
    (apart : owner ≠ sender) : (ThreadQueue.step owner queue .handlerReturns).isSome = true := by
  obtain ⟨batch, handling⟩ := inv.owner
  rw [ThreadQueue.step, handling]
  exact (congrArg Option.isSome (if_pos (inv.owner_idle apart))).trans rfl

end QueueInv

theorem loopStep_enabled {thread : T}
    (inv : QueueInv thread sender call signalling pushed dispatched .running (s.queue thread)) :
    (loopStep s thread).isSome = true ∨ (∃ current, (s.queue thread).owner = .waiting current) ∧
      (s.queue thread).event.waiter thread = .blocked := by
  unfold loopStep
  split
  · exact .inl rfl
  · rename_i current waiting
    by_cases blocked : (s.queue thread).event.waiter thread = .blocked
    · exact .inr ⟨⟨current, waiting⟩, blocked⟩
    · refine .inl ?_
      rw [Option.isSome_map, State.queueStep, Option.isSome_map, ThreadQueue.step, waiting]
      simp only [if_neg blocked]
      split <;> rfl
  · rename_i current popping
    refine .inl ?_
    rw [Option.isSome_map, State.queueStep, Option.isSome_map, ThreadQueue.step, popping]
    rfl
  · rename_i current batch dispatching
    refine .inl ?_
    rw [Option.isSome_map, State.queueStep, Option.isSome_map, ThreadQueue.step, dispatching]
    rfl
  · rename_i current batch handling
    exact absurd handling (inv.owner.1 current batch)

end Enabled

theorem QueueInv.blocked {owner sender : T} {call : OwnerCall} {signalling : Bool}
    {pushed dispatched : List (Message T)} {queue : ThreadQueue.State T (Option (TestMessage T))}
    (inv : QueueInv owner sender call signalling pushed dispatched .running queue)
    (waiting : ∃ current, queue.owner = .waiting current)
    (blocked : queue.event.waiter owner = .blocked) : signalling = true ∨ pushed = dispatched := by
  obtain ⟨current, waiting⟩ := waiting
  have wakeup := reached_wakeupInv inv.reach
  have silent := wakeup.awake blocked
  have inside : queue.exited = false := by
    by_contra exited
    have idle := (inv.exited (by simpa using exited)).1
    rw [idle] at waiting
    contradiction
  obtain ⟨later, parts, unhandled⟩ := inv.batch_pushed inside
  rw [ThreadQueue.State.localEventQueue, waiting, List.nil_append] at unhandled
  by_cases empty : queue.eventQueue = []
  · right
    rw [empty] at unhandled
    rw [parts, List.map_eq_nil_iff.mp unhandled.symm, List.append_nil]
  · left
    rcases wakeup.pending empty with signalled | ⟨thread, pushes⟩ | ⟨call, popping⟩
    · cases silent.symm.trans signalled
    · exact ((inv.sending thread).mp pushes).2
    · cases waiting.symm.trans popping

theorem workerStep_run (created : s.thread.created ≠ 0) (running : (s.thread.child 0).phase = .run) :
    workerStep program s = run program s := by
  rw [workerStep, if_neg created, running]

theorem queueStep_isSome {owner : T} {action : ThreadQueue.Action T (Option (TestMessage T))}
    (enabled : (ThreadQueue.step owner (s.queue owner) action).isSome = true) :
    (s.queueStep owner action).isSome = true :=
  Option.isSome_map.trans enabled

def State.Stops (program : Program T) (s : State T) : Prop :=
  (s.thread.child 0).phase = .terminated ∨ s.main.locks = true ∨ s.worker = .running ∧
    (∃ current, (s.queue program.worker).owner = .waiting current) ∧
    (s.queue program.worker).event.waiter program.worker = .blocked

namespace Inv

theorem inRun (inv : Inv program s) (begun : s.worker ≠ .registerHandler1)
    (still : s.worker ≠ .returned) : s.thread.created ≠ 0 ∧ (s.thread.child 0).phase = .run := by
  have started : s.main.life.hasStarted = true := by
    by_contra before
    exact begun (inv.absent (by simpa using before))
  refine ⟨Nat.ne_of_gt (inv.thread.child_created started), ?_⟩
  have fits := inv.phase started
  cases worker : s.worker with
  | registerHandler1 => exact absurd worker begun
  | returned => exact absurd worker still
  | _ =>
      rw [worker] at fits
      exact of_decide_eq_true fits

theorem worker_unlocks (inv : Inv program s) (locks : s.worker.locks = true) :
    (workerStep program s).isSome = true := by
  obtain ⟨created, running⟩ := inv.inRun
    (by intro here; rw [here] at locks; contradiction)
    (by intro here; rw [here] at locks; contradiction)
  rw [workerStep_run created running, run]
  have main := inv.mainQueue
  cases worker : s.worker with
  | send data stage =>
      rw [worker] at locks main
      rw [Option.isSome_map]
      cases stage with
      | find => contradiction
      | push =>
          exact Option.isSome_map.trans (queueStep_isSome (main.push_enabled program.distinct.symm _))
      | signal => exact Option.isSome_map.trans (queueStep_isSome main.signal_enabled)
      | unlock => rfl
  | _ =>
      rw [worker] at locks
      contradiction

theorem main_unlocks (inv : Inv program s) (locks : s.main.locks = true) :
    (mainStep program s).isSome = true := by
  rw [mainStep]
  have worker := inv.workerQueue
  have fits := inv.main
  cases main : s.main with
  | send workerThreadId index stage =>
      rw [main] at locks worker fits
      obtain ⟨-, rfl, -⟩ := fits
      dsimp only
      split
      · rfl
      · rw [Option.isSome_map]
        cases stage with
        | find => contradiction
        | push =>
            exact Option.isSome_map.trans (queueStep_isSome (worker.push_enabled program.distinct _))
        | signal => exact Option.isSome_map.trans (queueStep_isSome worker.signal_enabled)
        | unlock => rfl
  | _ =>
      rw [main] at locks
      contradiction

theorem childStep_enabled (inv : Inv program s) (started : s.main.life.hasStarted = true) :
    (s.threadStep program (.child 0)).isSome = true := by
  rw [State.threadStep, Option.isSome_map, ThreadStart.step,
    if_pos (inv.thread.child_created started)]
  rfl

theorem mutex_free (inv : Inv program s) : s.queueMutex = none ∨ s.main.locks = true ∨
    (workerStep program s).isSome = true := by
  cases held : s.queueMutex with
  | none => exact .inl rfl
  | some holder =>
      rcases inv.mutex holder held with main | worker
      · exact .inr (.inl main)
      · exact .inr (.inr (inv.worker_unlocks worker))

theorem run_progress (inv : Inv program s) (created : s.thread.created ≠ 0)
    (running : (s.thread.child 0).phase = .run) :
    (workerStep program s).isSome = true ∨ s.Stops program := by
  have free := inv.mutex_free
  have queue := inv.workerQueue
  have sane := inv.worker
  rw [workerStep_run created running] at free ⊢
  rw [run] at free ⊢
  cases worker : s.worker with
  | registerHandler1 | registerHandler2 => exact .inl rfl
  | getQueue =>
      rw [worker] at free queue
      rcases free with free | locks | goes
      · refine .inl ?_
        dsimp only
        rw [if_neg (not_not.mpr free)]
        split
        · exact Option.isSome_map.trans (queueStep_isSome (queue.call_enabled program.distinct.symm _))
        · rfl
      · exact .inr (.inr (.inl locks))
      · exact .inl goes
  | running =>
      rw [worker] at queue
      rcases loopStep_enabled queue with goes | ⟨waiting, blocked⟩
      · exact .inl (Option.isSome_map.trans goes)
      · exact .inr (.inr (.inr ⟨worker, waiting, blocked⟩))
  | handle message =>
      obtain ⟨pending, own, -⟩ := inv.received
      rw [worker] at own
      have registered := inv.workerHandlers
      cases pending with
      | nil => contradiction
      | cons entry rest =>
          obtain rfl : message = entryMessage program.main entry := (List.cons.inj own).1
          obtain ⟨handler, data⟩ := entry
          have registered := inv.workerHandlers handler (by rw [worker]; cases handler <;> rfl)
          refine .inl ?_
          simp only [entryMessage, registered]
          rfl
  | send data stage =>
      rw [worker] at free
      cases stage with
      | find =>
          rcases free with free | locks | goes
          · refine .inl ?_
            dsimp only
            rw [Option.isSome_map, State.sendStep, if_neg (not_not.mpr free)]
            split <;> rfl
          · exact .inr (.inr (.inl locks))
          · exact .inl goes
      | push | signal | unlock =>
          have goes := inv.worker_unlocks (by rw [worker]; rfl)
          rw [workerStep_run created running, run, worker] at goes
          exact .inl goes
  | handled =>
      rw [worker] at queue
      exact .inl (Option.isSome_map.trans
        (queueStep_isSome (queue.handlerReturns_enabled program.distinct.symm)))
  | returned =>
      have started := inv.started created
      exact .inl (inv.childStep_enabled started)
  | failed =>
      rw [worker] at sane
      exact sane.elim

theorem worker_progress (inv : Inv program s) (started : s.main.life.hasStarted = true) :
    (workerStep program s).isSome = true ∨ s.Stops program := by
  have created := Nat.ne_of_gt (inv.thread.child_created started)
  have goes := inv.childStep_enabled started
  cases phase : (s.thread.child 0).phase with
  | initThreadMessageQueue | threadEndHook =>
      rcases inv.mutex_free with free | locks | goes'
      · refine .inl ?_
        rw [workerStep, if_neg created, phase]
        exact (congrArg Option.isSome (if_neg (not_not.mpr free))).trans goes
      · exact .inr (.inr (.inl locks))
      · exact .inl goes'
  | run => exact inv.run_progress created phase
  | terminated => exact .inr (.inl phase)
  | setThreadId | setRunning | signal | clearRunning | terminate =>
      refine .inl ?_
      rw [workerStep, if_neg created, phase]
      exact goes

theorem starting_progress (inv : Inv program s) (main : s.main = .starting) :
    (mainStep program s).isSome = true ∨ (workerStep program s).isSome = true := by
  have thread := inv.thread
  rw [main] at thread
  have parent := thread.parent
  rw [mainStep, main]
  cases here : s.thread.parent with
  | started =>
      refine .inl ?_
      dsimp only
      rw [Option.isSome_map, State.threadStep, Option.isSome_map, ThreadStart.step, if_pos here]
      rfl
  | waiting =>
      by_cases blocked : s.thread.startedEvent.waiter () = .blocked
      · right
        have silent := thread.awake blocked
        have early : (s.thread.child 0).phase.hasSignalled = false := by
          by_contra signalled
          have wakes := thread.wakes here (by simpa using signalled)
          cases silent.symm.trans wakes
        rcases inv.worker_progress (by rw [main]; rfl) with goes | ended | locks | ⟨running, -⟩
        · exact goes
        · rw [ended] at early
          contradiction
        · rw [main] at locks
          contradiction
        · obtain ⟨-, inside⟩ := inv.inRun (by rw [running]; rintro ⟨⟩) (by rw [running]; rintro ⟨⟩)
          rw [inside] at early
          contradiction
      · refine .inl ?_
        dsimp only
        rw [State.threadStep, Option.isSome_map, ThreadStart.step, if_pos ⟨here, blocked⟩]
        split <;> rfl
  | idle | joining | destroyed =>
      rw [here] at parent
      contradiction

omit [DecidableEq T] in
theorem told (once : tells (fun _ => 0) program.messages = 1)
    (sent : s.main.sent program.messages = program.messages.length)
    (going : s.main.exitSent s.done = false) (running : s.worker = .running)
    (handled : s.pushedToWorker program = s.dispatchedByWorker program) :
    s.pushedToMain program = [result program.worker] := by
  have all : s.received = program.messages := by
    rw [State.pushedToWorker, State.dispatchedByWorker, going, running, sent,
      if_neg Bool.false_ne_true, List.append_nil] at handled
    refine ((entryMessage_injective program.main).list_map ?_).symm
    rw [← List.take_length (l := program.messages.map (entryMessage program.main)), List.length_map, handled]
    exact List.append_nil _
  rw [State.pushedToMain, all, once, running]
  rfl

theorem running_progress (once : tells (fun _ => 0) program.messages = 1) (inv : Inv program s)
    (main : s.main = .running) :
    (mainStep program s).isSome = true ∨ (workerStep program s).isSome = true := by
  have queue := inv.mainQueue
  rw [main] at queue
  rcases loopStep_enabled queue with goes | ⟨⟨current, waiting⟩, blocked⟩
  · refine .inl ?_
    rw [mainStep, main]
    exact Option.isSome_map.trans goes
  · right
    have going : s.done = false := by
      by_contra finished
      rcases inv.finishing (by rw [main]; rfl) (by simpa using finished) with idle | ⟨_, _, there⟩
      · cases waiting.symm.trans idle
      · cases waiting.symm.trans there
    have notSent : s.main.exitSent s.done = false := by
      rw [main]
      exact going
    rcases queue.blocked ⟨current, waiting⟩ blocked with signalling | handled
    · apply inv.worker_unlocks
      cases worker : s.worker with
      | send data stage =>
          rw [worker] at signalling
          cases stage <;> first | rfl | contradiction
      | _ =>
          rw [worker] at signalling
          contradiction
    · rcases inv.worker_progress (by rw [main]; rfl) with goes | ended | locks | ⟨running, waits, stuck⟩
      · exact goes
      · have fits := inv.phase (by rw [main]; rfl)
        rw [ended] at fits
        cases worker : s.worker with
        | returned => exact absurd worker (inv.not_returned notSent)
        | _ =>
            rw [worker] at fits
            contradiction
      · rw [main] at locks
        contradiction
      · have own := inv.workerQueue
        rw [running] at own
        rcases own.blocked waits stuck with signalling | all
        · rw [main] at signalling
          contradiction
        · rw [told once (by rw [main]; rfl) notSent running all, State.dispatchedByMain, main,
            if_neg (by rw [going]; rintro ⟨⟩)] at handled
          contradiction

theorem joining_progress (inv : Inv program s) (main : s.main = .joining) :
    (mainStep program s).isSome = true ∨ (workerStep program s).isSome = true := by
  have thread := inv.thread
  have finished := inv.main
  rw [main] at thread finished
  have joins : s.thread.parent = .joining := of_decide_eq_true thread.parent
  rcases inv.worker_progress (by rw [main]; rfl) with goes | ended | locks | ⟨running, waits, stuck⟩
  · exact .inr goes
  · left
    have terminated : s.thread.handleTerminated = true := by
      rw [ThreadStart.State.handleTerminated]
      split
      · rename_i number here
        rw [thread.handle number here, ended]
        rfl
      · rfl
    rw [mainStep, main]
    dsimp only
    rw [joins]
    dsimp only
    rw [Option.isSome_map, State.threadStep, Option.isSome_map, ThreadStart.step,
      if_pos ⟨joins, terminated⟩]
    rfl
  · rw [main] at locks
    contradiction
  · have own := inv.workerQueue
    rw [running] at own
    rcases own.blocked waits stuck with signalling | all
    · rw [main] at signalling
      contradiction
    · have exit : (⟨kAndroidLoopExit, none⟩ : Message T) ∈ s.dispatchedByWorker program := by
        rw [← all, State.pushedToWorker, main, show s.done = true from finished]
        exact List.mem_append_right _ List.mem_cons_self
      rw [State.dispatchedByWorker, running, show (Worker.running : Worker T).pending = [] from rfl,
        List.append_nil] at exit
      obtain ⟨entry, -, same⟩ := List.mem_map.mp exit
      exact absurd (congrArg ThreadQueue.Message.messageType same).symm
        (entryMessage_ne_exit program.main entry)

theorem progress (once : tells (fun _ => 0) program.messages = 1) (inv : Inv program s) :
    s.main = .finished ∨ (mainStep program s).isSome = true ∨ (workerStep program s).isSome = true := by
  have thread := inv.thread
  have fits := inv.main
  have queue := inv.mainQueue
  have worker := inv.workerQueue
  have free := inv.mutex_free
  have unlocks := inv.main_unlocks
  cases main : s.main with
  | starting => exact .inr (inv.starting_progress main)
  | running => exact .inr (inv.running_progress once main)
  | joining => exact .inr (inv.joining_progress main)
  | finished => exact .inl rfl
  | failed =>
      rw [main] at fits
      exact fits.elim
  | initThreadMessageQueue =>
      rw [main] at thread free
      have created : s.thread.created = 0 := thread.created
      have may : s.thread.mayRegister program.main = true := by
        rw [ThreadStart.State.mayRegister, created]
        rfl
      rcases free with free | locks | goes
      · refine .inr (.inl ?_)
        rw [mainStep, main]
        dsimp only
        rw [if_neg (not_not.mpr free), Option.isSome_map, State.threadStep, Option.isSome_map,
          ThreadStart.step, if_pos may]
        rfl
      · contradiction
      · exact .inr (.inr goes)
  | start =>
      rw [main] at thread
      have created : s.thread.created = 0 := thread.created
      have idle : s.thread.parent = .idle := of_decide_eq_true thread.parent
      have fresh : s.thread.isFresh program.worker = true := by
        rw [ThreadStart.State.isFresh, created]
        rfl
      refine .inr (.inl ?_)
      rw [mainStep, main]
      dsimp only
      rw [Option.isSome_map, State.threadStep, Option.isSome_map, ThreadStart.step,
        if_pos ⟨idle, fresh⟩]
      rfl
  | join =>
      rw [main] at thread
      have idle : s.thread.parent = .idle := of_decide_eq_true thread.parent
      refine .inr (.inl ?_)
      rw [mainStep, main]
      dsimp only
      rw [Option.isSome_map, State.threadStep, Option.isSome_map, ThreadStart.step, if_pos idle]
      rfl
  | destroy =>
      rw [main] at thread
      have idle : s.thread.parent = .idle := of_decide_eq_true thread.parent
      refine .inr (.inl ?_)
      rw [mainStep, main]
      dsimp only
      rw [Option.isSome_map, State.threadStep, Option.isSome_map, ThreadStart.step, if_pos idle]
      rfl
  | send workerThreadId index stage =>
      rw [main] at fits unlocks free
      cases stage with
      | push | signal | unlock => exact .inr (.inl (unlocks rfl))
      | find =>
          rcases free with free | locks | goes
          · refine .inr (.inl ?_)
            rw [mainStep, main]
            dsimp only
            split
            · rfl
            · rw [Option.isSome_map, State.sendStep, if_neg (not_not.mpr free)]
              split <;> rfl
          · contradiction
          · exact .inr (.inr goes)
  | getQueue =>
      rw [main] at free queue
      rcases free with free | locks | goes
      · refine .inr (.inl ?_)
        rw [mainStep, main]
        dsimp only
        rw [if_neg (not_not.mpr free)]
        split
        · exact Option.isSome_map.trans (queueStep_isSome (queue.call_enabled program.distinct _))
        · rfl
      · contradiction
      · exact .inr (.inr goes)
  | stop threadId =>
      rw [main] at free
      rcases free with free | locks | goes
      · refine .inr (.inl ?_)
        rw [mainStep, main]
        dsimp only
        rw [if_neg (not_not.mpr free)]
        split <;> rfl
      · contradiction
      · exact .inr (.inr goes)
  | handle message =>
      rw [main] at fits
      obtain ⟨-, rfl⟩ := fits
      have handler := inv.mainHandler (by rw [main]; rfl)
      refine .inr (.inl ?_)
      rw [mainStep, main]
      simp only [result, handler]
      rfl
  | stopPush threadId =>
      rw [main] at fits worker
      obtain ⟨-, rfl⟩ := fits
      refine .inr (.inl ?_)
      rw [mainStep, main]
      exact Option.isSome_map.trans (queueStep_isSome (worker.push_enabled program.distinct _))
  | stopSignal threadId =>
      rw [main] at fits worker
      obtain ⟨-, rfl⟩ := fits
      refine .inr (.inl ?_)
      rw [mainStep, main]
      exact Option.isSome_map.trans (queueStep_isSome worker.signal_enabled)
  | handled =>
      rw [main] at queue
      refine .inr (.inl ?_)
      rw [mainStep, main]
      exact Option.isSome_map.trans (queueStep_isSome (queue.handlerReturns_enabled program.distinct))
  | registerHandler | isDone | setDone =>
      refine .inr (.inl ?_)
      rw [mainStep, main]
      rfl

end Inv

def Action.isSpurious : Action → Bool
  | .main | .worker => false
  | .wakeStarted | .wakeMain | .wakeWorker => true

theorem startCost_spuriousWakeup {thread later : ThreadStart.State T} {main : T}
    (moved : ThreadStart.step main thread .spuriousWakeup = some later) :
    startCost later ≤ startCost thread + 1 := by
  cases ThreadStart.step_moved moved with
  | spuriousWakeup =>
      unfold startCost
      dsimp only
      split
      · split <;> split <;> omega
      · omega

theorem spurious_inv {action : Action} (spurious : action.isSpurious = true) (inv : Inv program s)
    (moved : step program s action = some after) :
    Inv program after ∧ after.cost program ≤ s.cost program + 1 := by
  cases action with
  | main | worker => contradiction
  | wakeStarted =>
      obtain ⟨later, ran, rfl⟩ := threadStep_eq_some moved
      have child := child_same ran (by simp)
      have woken := inv.thread.spuriousWakeup ran
      have created : later.created = s.thread.created := woken.created.trans inv.thread.created.symm
      have cost := mainCost_le (startCost_spuriousWakeup ran) program.messages.length s.main
      refine ⟨{ inv with thread := woken, phase := child ▸ inv.phase }, ?_⟩
      simp only [State.cost, childCost_same child created]
      omega
  | wakeMain =>
      obtain ⟨later, ran, rfl⟩ := queueStep_eq_some moved
      have cost : queueCost 3 program.main later ≤ queueCost 3 program.main (s.queue program.main) + 1 :=
        queueCost_spuriousWakeup ran
      refine ⟨{ inv with
        workerQueue := inv.workerQueue.elsewhere program.distinct.symm
        mainQueue := (inv.mainQueue.spuriousWakeup ran).here
        finishing := inv.finishing_same (by
          cases ThreadQueue.step_moved ran with
          | spuriousWakeup => rfl) }, ?_⟩
      simp only [State.cost, Function.update_self, Function.update_of_ne program.distinct.symm]
      omega
  | wakeWorker =>
      obtain ⟨later, ran, rfl⟩ := queueStep_eq_some moved
      have cost : queueCost 0 program.worker later ≤
          queueCost 0 program.worker (s.queue program.worker) + 1 := queueCost_spuriousWakeup ran
      refine ⟨{ inv with
        workerQueue := (inv.workerQueue.spuriousWakeup ran).here
        mainQueue := inv.mainQueue.elsewhere program.distinct
        finishing := inv.finishing_elsewhere _ }, ?_⟩
      simp only [State.cost, Function.update_self, Function.update_of_ne program.distinct]
      omega

theorem run_inv_cost (once : tells (fun _ => 0) program.messages = 1) (actions : List Action)
    (inv : Inv program s) (ran : Lib.run (step program) Lib.anyAction s actions = some after) :
    Inv program after ∧ after.cost program + actions.countP (!·.isSpurious) ≤
      s.cost program + actions.countP (·.isSpurious) := by
  induction actions generalizing s with
  | nil =>
      cases Option.some.inj ran
      exact ⟨inv, Nat.le_refl _⟩
  | cons action rest ih =>
      rw [Lib.run, if_pos (show Lib.anyAction s action from trivial)] at ran
      obtain ⟨middle, moved, ran⟩ := Option.bind_eq_some_iff.mp ran
      rw [List.countP_cons, List.countP_cons]
      cases spurious : action.isSpurious with
      | true =>
          obtain ⟨kept, cost⟩ := spurious_inv spurious inv moved
          obtain ⟨later, bound⟩ := ih kept ran
          refine ⟨later, ?_⟩
          simp only [Bool.not_true, Bool.false_eq_true, if_false, if_true]
          omega
      | false =>
          obtain ⟨kept, cost⟩ : Inv program middle ∧ middle.cost program < s.cost program := by
            cases action with
            | main => exact ⟨mainStep_inv once inv moved, mainStep_cost once inv moved⟩
            | worker => exact ⟨workerStep_inv inv moved, workerStep_cost inv moved⟩
            | wakeStarted | wakeMain | wakeWorker => contradiction
          obtain ⟨later, bound⟩ := ih kept ran
          refine ⟨later, ?_⟩
          simp only [Bool.not_false, Bool.false_eq_true, if_false, if_true]
          omega

omit [DecidableEq T] in
theorem cost_init (program : Program T) :
    (State.init program).cost program = 34 * program.messages.length + 30 := rfl

/-- No assertion fails, what is sent arrives in order, nobody waits for ever, and at the end everything has
been handled. A queue that is gone is used by nothing but the last statement of `Stop`. -/
structure State.AsIntended (program : Program T) (s : State T) : Prop where
  asserts : s.assertFailed = false ∧ s.thread.assertFailed = false
  alive : s.thread.usedAfterDestruction = false
  received : s.received <+: program.messages
  count : ∀ handler, (s.count handler).toInt = total handler s.received
  usedAfterErase : s.usedAfterErase = true → s.main.hasStopped s.done = true
  goesOn : s.main = .finished ∨ (step program s .main).isSome = true ∨
    (step program s .worker).isSome = true
  finished : s.main = .finished → s.received = program.messages ∧
    (s.thread.child 0).phase = .terminated ∧ s.thread.messageQueues program.worker = false ∧
    (s.queue program.main).eventQueue = []

omit [DecidableEq T] in
theorem all_received {messages received : List (Background × Int32)} {main : T} {message : Message T}
    {later : List (Message T)} (inside : received <+: messages)
    (exit : kAndroidLoopExit = message.messageType)
    (parts : messages.map (entryMessage main) ++ [⟨kAndroidLoopExit, none⟩] =
      received.map (entryMessage main) ++ message :: later) : received = messages := by
  obtain ⟨rest, rfl⟩ := inside
  rw [List.map_append, List.append_assoc] at parts
  cases rest with
  | nil => exact (List.append_nil _).symm
  | cons entry rest =>
      have first := (List.cons.inj (List.append_cancel_left parts)).1
      rw [← first] at exit
      exact absurd exit (entryMessage_ne_exit main entry)

theorem Inv.finished (once : tells (fun _ => 0) program.messages = 1) (inv : Inv program s)
    (main : s.main = .finished) : s.received = program.messages ∧
      (s.thread.child 0).phase = .terminated ∧ s.thread.messageQueues program.worker = false ∧
      (s.queue program.main).eventQueue = [] := by
  have thread := inv.thread
  have fits := inv.phase
  have mainDone := inv.main
  have own := inv.mainQueue
  rw [main] at thread fits mainDone own
  have finished : s.done = true := mainDone
  have destroyed : s.thread.parent = .destroyed := of_decide_eq_true thread.parent
  have ended : (s.thread.child 0).phase = .terminated :=
    thread.disciplined.allTerminated (thread.disciplined.joined (.inr destroyed)).2
      (thread.child_created rfl)
  have returned : s.worker = .returned := by
    have fits := fits rfl
    rw [ended] at fits
    cases worker : s.worker with
    | returned => rfl
    | _ =>
        rw [worker] at fits
        contradiction
  refine ⟨?_, ended, ?_, ?_⟩
  · have queue := inv.workerQueue
    rw [returned] at queue
    obtain ⟨-, message, later, parts, exit⟩ := queue.exited queue.owner.2
    obtain ⟨pending, -, more⟩ := inv.received
    rw [State.pushedToWorker, State.dispatchedByWorker, main, returned,
      show (Worker.returned : Worker T).pending = [] from rfl, List.append_nil, finished] at parts
    refine all_received ((List.prefix_append ..).trans more)
      (OwnerCall.getAndDispatchMessages.inj exit) (.trans ?_ parts)
    show _ = List.take program.messages.length _ ++ _
    rw [← List.length_map (entryMessage program.main), List.take_length]
    rfl
  · by_contra registered
    have queue := thread.worker_registered.mp (by simpa using registered)
    rw [ended] at queue
    contradiction
  · obtain ⟨later, parts, rest⟩ := own.batch_pushed own.owner.2
    have least := inv.told_le once
    have size := congrArg List.length parts
    rw [State.pushedToMain, State.dispatchedByMain, main, finished, List.length_replicate,
      List.length_append] at size
    have one : (if (Main.finished : Main T).isTold true = true then [result program.worker]
        else []).length = 1 := rfl
    have none_ : later = [] := List.eq_nil_of_length_eq_zero (by omega)
    rw [none_] at rest
    exact (List.append_eq_nil_iff.mp rest).2

theorem Inv.asIntended (fits : Fits program.messages) (once : tells (fun _ => 0) program.messages = 1)
    (inv : Inv program s) : s.AsIntended program where
  asserts := ⟨inv.assertFailed, inv.thread.disciplined.assertFailed⟩
  alive := inv.thread.disciplined.usedAfterDestruction
  received := by
    obtain ⟨pending, -, more⟩ := inv.received
    exact (List.prefix_append ..).trans more
  count := fun handler => by
    obtain ⟨pending, -, more⟩ := inv.received
    rw [inv.count, toInt_counts fits ((List.prefix_append ..).trans more)]
  usedAfterErase := inv.usedAfterErase
  goesOn := inv.progress once
  finished := inv.finished once

/-- However the threads take turns, the program ends after a bounded number of their steps. -/
theorem runs_as_intended (fits : Fits program.messages)
    (once : tells (fun _ => 0) program.messages = 1) (actions : List Action)
    (ran : Lib.run (step program) Lib.anyAction (.init program) actions = some s) :
    s.AsIntended program ∧ actions.countP (!·.isSpurious) ≤
      34 * program.messages.length + 30 + actions.countP (·.isSpurious) := by
  obtain ⟨inv, cost⟩ := run_inv_cost once actions (.init program) ran
  rw [cost_init] at cost
  exact ⟨inv.asIntended fits once, by omega⟩

def testProgram : Program Bool := ⟨false, true, nofun, testMessages⟩

def inTurns : List Action :=
  List.replicate 4 .main ++ [.wakeStarted, .main] ++ List.replicate 8 .worker ++
    List.replicate 30 .main ++ List.replicate 26 .worker ++ List.replicate 13 .main ++
    List.replicate 8 .worker ++ List.replicate 2 .main

theorem runs_as_intended_inTurns : ∃ s : State Bool,
    Lib.run (step testProgram) Lib.anyAction (.init testProgram) inTurns = some s ∧
    s.main = .finished ∧ s.usedAfterErase = false ∧ s.AsIntended testProgram ∧
    inTurns.countP (!·.isSpurious) = 92 ∧
    inTurns.countP (!·.isSpurious) ≤
      34 * testProgram.messages.length + 30 + inTurns.countP (·.isSpurious) := by
  have ran : (Lib.run (step testProgram) Lib.anyAction (.init testProgram) inTurns).isSome = true ∧
      ∀ s ∈ Lib.run (step testProgram) Lib.anyAction (.init testProgram) inTurns,
        s.main = .finished ∧ s.usedAfterErase = false := by
    decide +kernel
  obtain ⟨s, here⟩ := Option.isSome_iff_exists.mp ran.1
  obtain ⟨finished, unused⟩ := ran.2 s here
  obtain ⟨intended, bound⟩ := runs_as_intended (by decide +kernel) (by decide +kernel) inTurns here
  exact ⟨s, here, finished, unused, intended, by decide +kernel, bound⟩

/-- The worker takes the exit message, and has ended before `Stop` signals its event. -/
def endsBeforeSignal : List Action :=
  List.replicate 4 .main ++ List.replicate 8 .worker ++ List.replicate 24 .main ++
    List.replicate 2 .worker ++ List.replicate 6 .main ++ List.replicate 23 .worker ++
    List.replicate 6 .main ++ List.replicate 8 .worker ++ List.replicate 9 .main

example : (Lib.run (step testProgram) Lib.anyAction (.init testProgram) endsBeforeSignal).any
    (fun s => s.main = .finished && s.usedAfterErase) = true := by
  decide +kernel

end ThreadIpc.TestThreadMessageQueue

import ThreadIpc.TestThreadMessageQueue.Invariant

/-!
# What each step keeps

One lemma for each step of a thread that does more than move on.
-/

namespace ThreadIpc.TestThreadMessageQueue
open ThreadQueue (OwnerCall OwnerState)
open ThreadStart (ChildPhase)
open AsyncRouter (kAndroidLoopExit androidLoopStart)

variable {T : Type} [DecidableEq T] {program : Program T} {s after : State T}

section MainThread

omit [DecidableEq T] in
theorem take_messages {index : Nat} {entry : Background × Int32}
    (here : program.messages[index]? = some entry) :
    (program.messages.map (entryMessage program.main)).take index ++ [] ++
        [entryMessage program.main entry] =
      (program.messages.map (entryMessage program.main)).take (index + 1) ++ [] := by
  rw [List.append_nil, List.append_nil, List.take_add_one, List.getElem?_map, here]
  rfl

theorem mainStep_send (inv : Inv program s) {workerThreadId : T} {index : Nat} {stage : Stage}
    (sending : s.main = .send workerThreadId index stage) (moved : mainStep program s = some after) :
    Inv program after := by
  obtain ⟨thread, queue, mutex, handlers, main, worker, count, done, received, failed, erased⟩ := s
  have sending : main = .send workerThreadId index stage := sending
  subst sending
  obtain ⟨notDone, rfl, bound⟩ := inv.main
  have notDone : done = false := notDone
  subst notDone
  have registered : thread.messageQueues program.worker = true := inv.worker_registered rfl rfl
  simp only [mainStep] at moved
  split at moved
  · rename_i beyond
    have beyond : program.messages.length ≤ index := List.getElem?_eq_none_iff.mp beyond
    obtain ⟨rfl, rfl⟩ : index = program.messages.length ∧ stage = .find := by
      rcases bound with inside | there
      · exact absurd inside (Nat.not_lt.mpr beyond)
      · exact there
    cases Option.some.inj moved
    exact { inv with main := trivial }
  · rename_i handler data here
    obtain ⟨inside, entry⟩ := List.getElem?_eq_some_iff.mp here
    obtain ⟨⟨middle, stage'⟩, sent, rfl⟩ := Option.map_eq_some_iff.mp moved
    cases sendStep_moved sent with
    | finds accepted =>
        exact { inv with
          main := ⟨rfl, rfl, .inl inside⟩
          mutex := fun _ _ => .inl rfl }
    | refuses refused => exact absurd registered refused
    | pushes ran =>
        exact { inv with
          workerQueue := ((inv.workerQueue.push ran).of_eq (take_messages here) rfl).here
          mainQueue := inv.mainQueue.elsewhere program.distinct
          main := ⟨rfl, rfl, .inl inside⟩
          finishing := by rintro ⟨⟩
          usedAfterErase := by
            have same : erased = false := inv.not_erased rfl
            simp [State.atMain, same, registered] }
    | signals ran =>
        exact { inv with
          workerQueue := (inv.workerQueue.signal ran).here
          mainQueue := inv.mainQueue.elsewhere program.distinct
          main := ⟨rfl, rfl, .inl inside⟩
          finishing := by rintro ⟨⟩
          usedAfterErase := by
            have same : erased = false := inv.not_erased rfl
            simp [State.atMain, same, registered] }
    | unlocks =>
        exact { inv with
          main := ⟨rfl, rfl, (Nat.lt_or_eq_of_le inside).imp_right (⟨·, rfl⟩)⟩
          mutex := by rintro _ ⟨⟩ }

theorem mainStep_running (once : tells (fun _ => 0) program.messages = 1) (inv : Inv program s)
    (running : s.main = .running) (moved : mainStep program s = some after) : Inv program after := by
  obtain ⟨thread, queue, mutex, handlers, main, worker, count, done, received, failed, erased⟩ := s
  have running : main = .running := running
  subst running
  obtain ⟨⟨middle, looped⟩, looping, rfl⟩ := Option.map_eq_some_iff.mp moved
  have looping := loopStep_moved looping
  cases looped with
  | returns =>
      cases looping with
      | returns idle =>
          have inside : (queue program.main).exited = false := by
            by_contra exited
            obtain ⟨-, _, _, -, same⟩ := inv.mainQueue.exited (by simpa using exited)
            contradiction
          exact { inv with
            mainQueue := { inv.mainQueue with owner := ⟨idle, inside⟩ }
            finishing := by rintro ⟨⟩ }
  | goesOn =>
      obtain ⟨queue', same, mainQueue⟩ := inv.mainQueue.goesOn_moved looping
      have finishing := looping.finishing inv.mainQueue.calls
      subst same
      exact { inv with
        workerQueue := inv.workerQueue.elsewhere program.distinct.symm
        mainQueue := mainQueue.here
        finishing := fun running finished => .inl (finishing (inv.finishing running finished)) }
  | handles message =>
      obtain ⟨queue', same, ⟨later, parts⟩, -, mainQueue⟩ := inv.mainQueue.handles_moved looping
      subst same
      obtain ⟨undone, own⟩ := inv.first_result once rfl parts
      have undone : done = false := undone
      subst undone
      exact { inv with
        workerQueue := inv.workerQueue.elsewhere program.distinct.symm
        mainQueue := (mainQueue.of_eq rfl (congrArg ([] ++ [·]) own)).here
        main := ⟨rfl, own⟩
        finishing := by rintro ⟨⟩ }

theorem mainStep_inv (once : tells (fun _ => 0) program.messages = 1) (inv : Inv program s)
    (moved : mainStep program s = some after) : Inv program after := by
  obtain ⟨thread, queue, mutex, handlers, main, worker, count, done, received, failed, erased⟩ := s
  cases main with
  | initThreadMessageQueue =>
      simp only [mainStep, Option.ite_none_left_eq_some] at moved
      obtain ⟨-, moved⟩ := moved
      obtain ⟨_, inside, rfl⟩ := Option.map_eq_some_iff.mp moved
      obtain ⟨thread, ran, rfl⟩ := threadStep_eq_some inside
      exact { inv with
        thread := inv.thread.register ran
        phase := by rintro ⟨⟩ }
  | registerHandler =>
      cases Option.some.inj moved
      exact { inv with
        mainHandler := fun _ => by simp [State.registerHandler, State.atMain]
        workerHandlers := fun handler registered => by
          have other : handler.messageType ≠ kMessageType3 := by
            cases handler <;> decide
          rw [← inv.workerHandlers handler registered]
          exact Function.update_of_ne other .. }
  | start =>
      obtain ⟨_, inside, rfl⟩ := Option.map_eq_some_iff.mp moved
      obtain ⟨thread, ran, rfl⟩ := threadStep_eq_some inside
      exact { inv with
        thread := inv.thread.start ran
        phase := fun _ => by
          have before : worker = .registerHandler1 := inv.absent rfl
          show worker.fits (thread.child 0).phase = true
          rw [before, inv.thread.start_child ran]
          rfl
        absent := by rintro ⟨⟩ }
  | starting =>
      simp only [mainStep] at moved
      split at moved
      · obtain ⟨thread, ran, rfl⟩ := threadStep_eq_some moved
        have child := child_same ran (by simp)
        exact { inv with
          thread := inv.thread.wait ran
          phase := child ▸ inv.phase }
      · obtain ⟨_, inside, rfl⟩ := Option.map_eq_some_iff.mp moved
        obtain ⟨thread, ran, rfl⟩ := threadStep_eq_some inside
        have child := child_same ran (by simp)
        have started := inv.thread.startReturns ran
        simp only [started.threadId rfl, State.atMain]
        exact { inv with
          thread := started
          phase := child ▸ inv.phase
          main := ⟨inv.main, rfl, by simp; omega⟩ }
  | send workerThreadId index stage => exact mainStep_send inv rfl moved
  | isDone =>
      cases Option.some.inj moved
      cases done with
      | true => exact { inv with main := rfl }
      | false => exact { inv with main := rfl }
  | getQueue =>
      simp only [mainStep, Option.ite_none_left_eq_some] at moved
      obtain ⟨-, moved⟩ := moved
      have registered := inv.thread.main_registered (by rintro ⟨⟩)
      rw [if_pos registered] at moved
      obtain ⟨_, inside, rfl⟩ := Option.map_eq_some_iff.mp moved
      obtain ⟨queue, ran, rfl⟩ := queueStep_eq_some inside
      exact { inv with
        workerQueue := inv.workerQueue.elsewhere program.distinct.symm
        mainQueue := (inv.mainQueue.call_ ran).here
        main := trivial
        finishing := fun _ finished => Bool.noConfusion (inv.main.symm.trans finished) }
  | running => exact mainStep_running once inv rfl moved
  | handle message =>
      obtain ⟨notDone, rfl⟩ := inv.main
      have notDone : done = false := notDone
      subst notDone
      have handler : handlers kMessageType3 = some .main := inv.mainHandler rfl
      simp only [mainStep, result, handler, Option.map_some] at moved
      cases Option.some.inj moved
      exact { inv with
        main := ⟨rfl, rfl⟩
        assertFailed := by
          have same : failed = false := inv.assertFailed
          simp [same, State.atMain] }
  | stop threadId =>
      obtain ⟨notDone, rfl⟩ := inv.main
      have notDone : done = false := notDone
      subst notDone
      have registered : thread.messageQueues program.worker = true := inv.worker_registered rfl rfl
      simp only [mainStep, Option.ite_none_left_eq_some, registered,
        if_true] at moved
      cases Option.some.inj moved.2
      exact { inv with }
  | stopPush threadId =>
      obtain ⟨notDone, rfl⟩ := inv.main
      have notDone : done = false := notDone
      subst notDone
      have registered : thread.messageQueues program.worker = true := inv.worker_registered rfl rfl
      obtain ⟨_, inside, rfl⟩ := Option.map_eq_some_iff.mp moved
      obtain ⟨queue, ran, rfl⟩ := queueStep_eq_some inside
      exact { inv with
        workerQueue := ((inv.workerQueue.push ran).of_eq
          (congrArg (· ++ [_]) (List.append_nil _)) rfl).here
        mainQueue := inv.mainQueue.elsewhere program.distinct
        finishing := by rintro ⟨⟩
        usedAfterErase := by
          have same : erased = false := inv.not_erased rfl
          simp [State.atMain, same, registered] }
  | stopSignal threadId =>
      obtain ⟨notDone, rfl⟩ := inv.main
      have notDone : done = false := notDone
      subst notDone
      obtain ⟨_, inside, rfl⟩ := Option.map_eq_some_iff.mp moved
      obtain ⟨queue, ran, rfl⟩ := queueStep_eq_some inside
      exact { inv with
        workerQueue := (inv.workerQueue.signal ran).here
        mainQueue := inv.mainQueue.elsewhere program.distinct
        main := rfl
        finishing := by rintro ⟨⟩
        usedAfterErase := fun _ => rfl }
  | setDone =>
      cases Option.some.inj moved
      exact { inv with
        main := rfl
        finishing := by rintro ⟨⟩
        usedAfterErase := fun _ => rfl }
  | handled =>
      obtain ⟨_, inside, rfl⟩ := Option.map_eq_some_iff.mp moved
      obtain ⟨queue, ran, rfl⟩ := queueStep_eq_some inside
      have finished : done = true := inv.main
      subst finished
      exact { inv with
        workerQueue := inv.workerQueue.elsewhere program.distinct.symm
        mainQueue := (inv.mainQueue.handlerReturns ran).here
        main := trivial
        finishing := fun _ _ => .inr (by
          cases ThreadQueue.step_moved ran with
          | handlerReturns => exact ⟨_, _, congrArg _ (Function.update_self ..)⟩) }
  | join =>
      obtain ⟨_, inside, rfl⟩ := Option.map_eq_some_iff.mp moved
      obtain ⟨thread, ran, rfl⟩ := threadStep_eq_some inside
      have child := child_same ran (by simp)
      exact { inv with
        thread := inv.thread.join ran
        phase := child ▸ inv.phase }
  | joining =>
      have joins : thread.parent = .joining := of_decide_eq_true inv.thread.parent
      simp only [mainStep, joins] at moved
      obtain ⟨_, inside, rfl⟩ := Option.map_eq_some_iff.mp moved
      obtain ⟨thread, ran, rfl⟩ := threadStep_eq_some inside
      have child := child_same ran (by simp)
      exact { inv with
        thread := inv.thread.joinReturns ran
        phase := child ▸ inv.phase }
  | destroy =>
      obtain ⟨_, inside, rfl⟩ := Option.map_eq_some_iff.mp moved
      obtain ⟨thread, ran, rfl⟩ := threadStep_eq_some inside
      have child := child_same ran (by simp)
      exact { inv with
        thread := inv.thread.destroy ran
        phase := child ▸ inv.phase }
  | finished | failed => cases moved

end MainThread

section WorkerThread

omit [DecidableEq T] in
theorem registered_other {other : Int32} {kept : Handler} (messageType : Int32) (handler : Handler)
    (registered : s.handlers other = some kept) (different : other ≠ messageType) :
    (s.registerHandler messageType handler).handlers other = some kept :=
  (Function.update_of_ne different ..).trans registered

namespace Inv

theorem finishing_elsewhere (inv : Inv program s)
    (queue : ThreadQueue.State T (Option (TestMessage T))) (running : s.main.loop = .running)
    (finished : s.done = true) :
    (Function.update s.queue program.worker queue program.main).owner = .idle ∨ ∃ call batch,
      (Function.update s.queue program.worker queue program.main).owner = .dispatching call batch := by
  rw [Function.update_of_ne program.distinct]
  exact inv.finishing running finished

theorem started (inv : Inv program s) (created : s.thread.created ≠ 0) :
    s.main.life.hasStarted = true := by
  by_contra before
  exact created (inv.thread.created.trans (if_neg before))

omit [DecidableEq T] in
theorem next_received {message : Message T} {later : List (Message T)}
    (parts : s.pushedToWorker program = s.dispatchedByWorker program ++ message :: later)
    (running : s.worker = .running)
    (plain : androidLoopStart ≠ .getAndDispatchMessages message.messageType) :
    ∃ pending, [message] = pending.map (entryMessage program.main) ∧
      s.received ++ pending <+: program.messages := by
  have sent : s.received.map (entryMessage program.main) ++ [message] <+:
      program.messages.map (entryMessage program.main) := by
    have pending : s.worker.pending = [] := by
      rw [running]
      rfl
    rw [State.pushedToWorker, State.dispatchedByWorker, pending, List.append_nil] at parts
    have before : s.received.map (entryMessage program.main) ++ [message] <+:
        (program.messages.map (entryMessage program.main)).take (s.main.sent program.messages) ++
          if s.main.exitSent s.done then [⟨kAndroidLoopExit, none⟩] else [] :=
      ⟨later, by rw [parts, List.append_assoc, List.singleton_append]⟩
    split at before
    · rcases List.prefix_concat_iff.mp before with all | inside
      · have exit := List.singleton_inj.mp (List.append_inj_right' all rfl)
        exact absurd (congrArg OwnerCall.getAndDispatchMessages
          (congrArg ThreadQueue.Message.messageType exit).symm) plain
      · exact inside.trans (List.take_prefix ..)
    · rw [List.append_nil] at before
      exact before.trans (List.take_prefix ..)
  obtain ⟨rest, all⟩ := sent
  obtain ⟨first, others, parts, mapped, -⟩ := List.append_eq_map_iff.mp all
  obtain ⟨received, pending, rfl, same, own⟩ := List.append_eq_map_iff.mp mapped.symm
  refine ⟨pending, own.symm, others, ?_⟩
  rw [parts, (entryMessage_injective program.main).list_map same]

theorem finishing_same (inv : Inv program s)
    {queue : ThreadQueue.State T (Option (TestMessage T))}
    (same : queue.owner = (s.queue program.main).owner) (running : s.main.loop = .running)
    (finished : s.done = true) :
    (Function.update s.queue program.main queue program.main).owner = .idle ∨ ∃ call batch,
      (Function.update s.queue program.main queue program.main).owner = .dispatching call batch := by
  rw [Function.update_self, same]
  exact inv.finishing running finished

theorem childStep (inv : Inv program s) (started : s.main.life.hasStarted = true)
    (fits : s.worker.fits (s.thread.child 0).phase.next = true)
    (moved : s.threadStep program (.child 0) = some after) : Inv program after := by
  obtain ⟨thread, ran, rfl⟩ := threadStep_eq_some moved
  obtain ⟨later, next⟩ := inv.thread.child started ran
  exact { inv with
    thread := later
    phase := fun _ => next ▸ fits }

theorem registered_main (inv : Inv program s) (started : s.main.life.hasStarted = true) :
    s.thread.messageQueues program.main = true :=
  inv.thread.main_registered (by
    intro before
    rw [before] at started
    contradiction)

end Inv

omit [DecidableEq T] in
theorem fits_run (later : Worker T) (inRun : (s.thread.child 0).phase = .run)
    (inside : later.fits .run = true) :
    s.main.life.hasStarted = true → later.fits (s.thread.child 0).phase = true :=
  fun _ => (congrArg later.fits inRun).trans inside

theorem run_running (inv : Inv program s) (started : s.main.life.hasStarted = true)
    (inRun : (s.thread.child 0).phase = .run) (running : s.worker = .running)
    (moved : run program s = some after) : Inv program after := by
  have fits := fun later => fits_run later inRun
  obtain ⟨thread, queue, mutex, handlers, main, worker, count, done, received, failed, erased⟩ := s
  have running : worker = .running := running
  subst running
  obtain ⟨⟨middle, looped⟩, looping, rfl⟩ := Option.map_eq_some_iff.mp moved
  have looping := loopStep_moved looping
  cases looped with
  | returns =>
      cases looping with
      | returns idle =>
          have exited : (queue program.worker).exited = true :=
            (inv.workerQueue.owner.2 idle).resolve_right (by rintro ⟨⟩)
          exact { inv with
            workerQueue := { inv.workerQueue with owner := ⟨idle, exited⟩ }
            phase := fits .returned rfl
            absent := fun absent => Bool.noConfusion (started.symm.trans absent) }
  | goesOn =>
      obtain ⟨queue', same, workerQueue⟩ := inv.workerQueue.goesOn_moved looping
      subst same
      exact { inv with
        workerQueue := workerQueue.here
        mainQueue := inv.mainQueue.elsewhere program.distinct
        finishing := inv.finishing_elsewhere _ }
  | handles message =>
      obtain ⟨queue', same, ⟨later, parts⟩, plain, workerQueue⟩ :=
        inv.workerQueue.handles_moved looping
      have next := Inv.next_received parts rfl plain
      subst same
      exact { inv with
        workerQueue := (workerQueue.of_eq rfl (congrArg (· ++ [message]) (List.append_nil _))).here
        mainQueue := inv.mainQueue.elsewhere program.distinct
        phase := fits (.handle message) rfl
        absent := fun absent => Bool.noConfusion (started.symm.trans absent)
        received := next
        finishing := inv.finishing_elsewhere _ }

theorem run_handle (inv : Inv program s) (started : s.main.life.hasStarted = true)
    (inRun : (s.thread.child 0).phase = .run) {message : Message T} (handling : s.worker = .handle message)
    (moved : run program s = some after) : Inv program after := by
  have fits := fun later => fits_run later inRun
  obtain ⟨thread, queue, mutex, handlers, main, worker, count, done, received, failed, erased⟩ := s
  have handling : worker = .handle message := handling
  subst handling
  obtain ⟨pending, own, more⟩ := inv.received
  obtain ⟨⟨handler, data⟩, rfl⟩ : ∃ entry, pending = [entry] := by
    cases pending with
    | nil => cases own
    | cons entry rest => cases rest with
        | nil => exact ⟨entry, rfl⟩
        | cons => cases own
  obtain rfl : message = entryMessage program.main (handler, data) := List.singleton_inj.mp own
  have registered : handlers handler.messageType = some (.background handler) :=
    inv.workerHandlers handler (by cases handler <;> rfl)
  have count_ : count = counts (fun _ => 0) received := inv.count
  simp only [run, entryMessage, registered] at moved
  cases Option.some.inj moved
  have kept : failed = false := inv.assertFailed
  have told := tells_concat (fun _ => 0) received handler data
  have counted := counts_concat (fun _ => 0) received handler data
  rw [← count_] at told counted
  have dispatched : received.map (entryMessage program.main) ++
      [entryMessage program.main (handler, data)] =
      (received ++ [(handler, data)]).map (entryMessage program.main) ++ [] := by
    rw [List.map_append, List.append_nil, List.map_singleton]
  have asserts : (failed || decide (program.main ≠ program.main)) = false := by
    simp [kept]
  by_cases complete : count handler + data = 600
  · simp only [if_pos complete] at told ⊢
    exact { inv with
      workerQueue := inv.workerQueue.of_eq rfl dispatched
      mainQueue := inv.mainQueue.of_eq (by
        show List.replicate (tells (fun _ => 0) received - 0) (result program.worker) =
          List.replicate (tells (fun _ => 0) (received ++ [(handler, data)]) - 1) _
        rw [told]
        rfl) rfl
      worker := complete
      phase := fits (.send 600 .find) rfl
      absent := fun absent => Bool.noConfusion (started.symm.trans absent)
      received := ⟨[], rfl, by rwa [List.append_nil]⟩
      count := counted.symm
      untold := told ▸ Nat.le_add_left ..
      assertFailed := asserts }
  · simp only [if_neg complete] at told ⊢
    exact { inv with
      workerQueue := inv.workerQueue.of_eq rfl dispatched
      mainQueue := inv.mainQueue.of_eq (by
        show List.replicate (tells (fun _ => 0) received - 0) (result program.worker) =
          List.replicate (tells (fun _ => 0) (received ++ [(handler, data)]) - 0) _
        rw [told]
        rfl) rfl
      worker := trivial
      phase := fits .handled rfl
      absent := fun absent => Bool.noConfusion (started.symm.trans absent)
      received := ⟨[], rfl, by rwa [List.append_nil]⟩
      count := counted.symm
      untold := Nat.zero_le _
      assertFailed := asserts }

theorem run_send (inv : Inv program s) (started : s.main.life.hasStarted = true) {data : Int32} {stage : Stage}
    (sending : s.worker = .send data stage) (moved : run program s = some after) : Inv program after := by
  have registered := inv.registered_main started
  obtain ⟨thread, queue, mutex, handlers, main, worker, count, done, received, failed, erased⟩ := s
  have registered : thread.messageQueues program.main = true := registered
  have sending : worker = .send data stage := sending
  subst sending
  obtain rfl : data = 600 := inv.worker
  obtain ⟨⟨middle, stage'⟩, sent, rfl⟩ := Option.map_eq_some_iff.mp moved
  cases sendStep_moved sent with
  | finds accepted =>
      exact { inv with
        absent := fun absent => Bool.noConfusion (started.symm.trans absent)
        mutex := fun _ _ => .inr rfl }
  | refuses refused => exact absurd registered refused
  | pushes ran =>
      exact { inv with
        workerQueue := inv.workerQueue.elsewhere program.distinct.symm
        mainQueue := ((inv.mainQueue.push ran).of_eq (by
          have positive : 1 ≤ tells (fun _ => 0) received := inv.untold
          show List.replicate (tells (fun _ => 0) received - 1) (result program.worker) ++
            [result program.worker] = List.replicate (tells (fun _ => 0) received - 0) _
          rw [← List.replicate_succ', Nat.sub_add_cancel positive, Nat.sub_zero]) rfl).here
        absent := fun absent => Bool.noConfusion (started.symm.trans absent)
        untold := Nat.zero_le _
        finishing := inv.finishing_same (by
          cases ThreadQueue.step_moved ran with
          | push => rfl)
        usedAfterErase := fun used => inv.usedAfterErase (by
          have same : (erased || !thread.messageQueues program.main) = true := used
          rwa [registered, Bool.not_true, Bool.or_false] at same) }
  | signals ran =>
      exact { inv with
        workerQueue := inv.workerQueue.elsewhere program.distinct.symm
        mainQueue := (inv.mainQueue.signal ran).here
        absent := fun absent => Bool.noConfusion (started.symm.trans absent)
        finishing := inv.finishing_same (by
          cases ThreadQueue.step_moved ran with
          | signal => rfl)
        usedAfterErase := fun used => inv.usedAfterErase (by
          have same : (erased || !thread.messageQueues program.main) = true := used
          rwa [registered, Bool.not_true, Bool.or_false] at same) }
  | unlocks =>
      exact { inv with
        worker := trivial
        absent := fun absent => Bool.noConfusion (started.symm.trans absent)
        mutex := by rintro _ ⟨⟩ }

theorem run_inv (started : s.main.life.hasStarted = true) (running : (s.thread.child 0).phase = .run)
    (inv : Inv program s)
    (moved : run program s = some after) : Inv program after := by
  have mine : s.thread.messageQueues program.worker = true :=
    inv.thread.worker_registered.mpr (running ▸ rfl)
  have fits := fun later => fits_run later running
  obtain ⟨thread, queue, mutex, handlers, main, worker, count, done, received, failed, erased⟩ := s
  cases worker with
  | registerHandler1 =>
      cases Option.some.inj moved
      exact { inv with
        phase := fits .registerHandler2 rfl
        absent := fun absent => Bool.noConfusion (started.symm.trans absent)
        mainHandler := fun registered =>
          registered_other kMessageType1 (.background .handler1) (inv.mainHandler registered) (by decide)
        workerHandlers := fun handler registered => by
          cases handler with
          | handler1 => simp [State.registerHandler, State.atWorker, Background.messageType]
          | handler2 => contradiction }
  | registerHandler2 =>
      cases Option.some.inj moved
      exact { inv with
        phase := fits .getQueue rfl
        absent := fun absent => Bool.noConfusion (started.symm.trans absent)
        mainHandler := fun registered =>
          registered_other kMessageType2 (.background .handler2) (inv.mainHandler registered) (by decide)
        workerHandlers := fun handler registered => by
          cases handler with
          | handler1 =>
              exact registered_other kMessageType2 (.background .handler2)
                (inv.workerHandlers .handler1 rfl) (by decide)
          | handler2 => simp [State.registerHandler, State.atWorker, Background.messageType] }
  | getQueue =>
      simp only [run, Option.ite_none_left_eq_some] at moved
      obtain ⟨-, moved⟩ := moved
      rw [if_pos mine] at moved
      obtain ⟨_, inside, rfl⟩ := Option.map_eq_some_iff.mp moved
      obtain ⟨queue, ran, rfl⟩ := queueStep_eq_some inside
      exact { inv with
        workerQueue := (inv.workerQueue.call_ ran).here
        mainQueue := inv.mainQueue.elsewhere program.distinct
        phase := fits .running rfl
        absent := fun absent => Bool.noConfusion (started.symm.trans absent)
        finishing := inv.finishing_elsewhere _ }
  | running => exact run_running inv started running rfl moved
  | handle message => exact run_handle inv started running rfl moved
  | send data stage => exact run_send inv started rfl moved
  | handled =>
      obtain ⟨_, inside, rfl⟩ := Option.map_eq_some_iff.mp moved
      obtain ⟨queue, ran, rfl⟩ := queueStep_eq_some inside
      exact { inv with
        workerQueue := (inv.workerQueue.handlerReturns ran).here
        mainQueue := inv.mainQueue.elsewhere program.distinct
        phase := fits .running rfl
        absent := fun absent => Bool.noConfusion (started.symm.trans absent)
        finishing := inv.finishing_elsewhere _ }
  | returned =>
      have next : (Worker.returned : Worker T).fits (thread.child 0).phase.next = true :=
        congrArg (Worker.returned : Worker T).fits (congrArg ChildPhase.next running)
      exact inv.childStep started next moved
  | failed => cases moved

omit [DecidableEq T] in
theorem Worker.fits_next {worker : Worker T} {phase : ChildPhase} (fits : worker.fits phase = true)
    (outside : phase ≠ .run) : worker.fits phase.next = true := by
  cases worker with
  | registerHandler1 | returned => cases phase <;> first | rfl | contradiction
  | _ => exact absurd (of_decide_eq_true fits) outside

theorem workerStep_inv (inv : Inv program s) (moved : workerStep program s = some after) :
    Inv program after := by
  simp only [workerStep, Option.ite_none_left_eq_some] at moved
  obtain ⟨created, moved⟩ := moved
  have started := inv.started created
  have next (outside : (s.thread.child 0).phase ≠ .run) :
      s.worker.fits (s.thread.child 0).phase.next = true :=
    Worker.fits_next (inv.phase started) outside
  cases phase : (s.thread.child 0).phase with
  | initThreadMessageQueue | threadEndHook =>
      simp only [phase, Option.ite_none_left_eq_some] at moved
      exact inv.childStep started (next (by rw [phase]; rintro ⟨⟩)) moved.2
  | run =>
      rw [phase] at moved
      exact run_inv started phase inv moved
  | terminated =>
      rw [phase] at moved
      contradiction
  | setThreadId | setRunning | signal | clearRunning | terminate =>
      rw [phase] at moved
      exact inv.childStep started (next (by rw [phase]; rintro ⟨⟩)) moved

end WorkerThread

end ThreadIpc.TestThreadMessageQueue

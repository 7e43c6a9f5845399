import ThreadIpc.Ipc.WriteMessages
import ThreadIpc.Lib.Reachability

/-!
# One `OutboundQueue` between events

`SendWithCompletion` and `SendToAll` add messages, the worker thread asks for the handles and
completes one wait for a handle of the last answer; all of them hold `thread_sync_mutex_`, so each
is one step. A wait for the write mutex that completes makes this process its owner.
-/

namespace ThreadIpc.Ipc

open ProcessRegistry (IpcProcessId)

structure QueueState where
  queue : OutboundQueue
  ownsWriteMutex : Bool
  reported : List Handle
  deriving DecidableEq

inductive QueueMachine
  | running (state : QueueState)
  | removed
  | aborted (assertion : Assertion)
  deriving DecidableEq

inductive QueueEvent
  | addMessageToQueue (message : ShareableIpcMessage) (now : Int)
  | addWaitHandles (now : Int)
  | waitComplete (handle : Handle) (abandoned : Bool) (now : Int) (spaces : Nat → Option Nat)

namespace QueueState

def opened (processId : IpcProcessId) : QueueState where
  queue := .opened processId
  ownsWriteMutex := false
  reported := []

def destroy (state : QueueState) : Except Assertion Unit :=
  check (!state.queue.hasWriteMutex || state.ownsWriteMutex) .mutexReleased

def askForHandles (state : QueueState) (now : Int) : Except Assertion (Option QueueState) := do
  match ← state.queue.addWaitHandles now with
  | none => do
      state.destroy
      .ok none
  | some handles => .ok (some { state with reported := handles })

def completeWait (currentProcessId : IpcProcessId) (state : QueueState) (handle : Handle)
    (now : Int) (spaces : Nat → Option Nat) : Except Assertion (QueueState × Outcome) := do
  let outcome ← state.queue.waitComplete currentProcessId handle now spaces
  let ownsWriteMutex := state.ownsWriteMutex || handle == .writeMutex
  check (!outcome.released || ownsWriteMutex) .mutexReleased
  .ok (⟨outcome.queue, ownsWriteMutex && !outcome.released, []⟩, outcome)

end QueueState

namespace QueueMachine

def ofResult : Except Assertion (Option QueueState) → QueueMachine
  | .ok (some state) => .running state
  | .ok none => .removed
  | .error assertion => .aborted assertion

def step (currentProcessId : IpcProcessId) : QueueMachine → QueueEvent → Option QueueMachine
  | .running state, .addMessageToQueue message now =>
      some (.running { state with queue := state.queue.addMessageToQueue message now })
  | .running state, .addWaitHandles now => some (ofResult (state.askForHandles now))
  | .running state, .waitComplete handle _ now spaces =>
      if handle ∈ state.reported then
        some (ofResult ((state.completeWait currentProcessId handle now spaces).map (some ·.1)))
      else none
  | .removed, _ | .aborted _, _ => none

end QueueMachine

structure FlagsInv (queue : OutboundQueue) : Prop where
  pending : queue.pending ≠ [] ↔
    (queue.isWaitingForWriteMutex = true ∧ queue.isWaitingForSpaceAvailable = false) ∨
    (queue.isWaitingForWriteMutex = false ∧ queue.isWaitingForSpaceAvailable = true)
  exclusive : queue.isWaitingForWriteMutex = true → queue.isWaitingForSpaceAvailable = false
  held : queue.hasWriteMutex = queue.isWaitingForSpaceAvailable
  progress : queue.InProgress queue.pending
  inProgress : queue.inProgressMessage ≠ none → queue.hasWriteMutex = true

structure QueueInv (state : QueueState) : Prop extends FlagsInv state.queue where
  owned : state.ownsWriteMutex = state.queue.hasWriteMutex
  processHandle : state.reported ≠ [] → state.queue.processHandle = true
  reportedMutex : .writeMutex ∈ state.reported →
    state.queue.isWaitingForWriteMutex = true ∧ state.queue.isWaitingForSpaceAvailable = false
  reportedSpace : .spaceAvailableEvent ∈ state.reported →
    state.queue.isWaitingForSpaceAvailable = true ∧ state.queue.isWaitingForWriteMutex = false

def QueueMachine.Inv : QueueMachine → Prop
  | .running state => QueueInv state
  | .removed => True
  | .aborted assertion => assertion = .messageSerialized

structure SameMessages (queue queue' : OutboundQueue) : Prop where
  processId : queue'.processId = queue.processId
  pending : queue'.pending = queue.pending
  inProgressMessage : queue'.inProgressMessage = queue.inProgressMessage
  inProgressWritten : queue'.inProgressWritten = queue.inProgressWritten
  inProgressSequence : queue'.inProgressSequence = queue.inProgressSequence

inductive Completed (queue : OutboundQueue) (outcome : Outcome) : Prop
  | wrote (start : OutboundQueue) (written : Written) (same : SameMessages queue start)
      (writing : start.Writing queue.pending true)
      (wrote : OutboundQueue.Wrote start true queue.pending 0 written)
      (stopped : SameMessages written.queue outcome.queue)
      (successful : outcome.successful = written.successful)
      (chunks : outcome.chunks = written.chunks)
  | closed (same : SameMessages queue outcome.queue) (successful : outcome.successful = [])
      (chunks : outcome.chunks = [])

theorem queueInv_opened (processId : IpcProcessId) : QueueInv (.opened processId) where
  pending := by simp [QueueState.opened, OutboundQueue.opened]
  exclusive := nofun
  held := rfl
  progress := ⟨rfl, rfl⟩
  inProgress := fun some => absurd rfl some
  owned := rfl
  processHandle := fun nonempty => absurd rfl nonempty
  reportedMutex := by simp [QueueState.opened]
  reportedSpace := by simp [QueueState.opened]

namespace OutboundQueue
variable {currentProcessId : IpcProcessId} {queue : OutboundQueue}

theorem InProgress.append {pending : List ShareableIpcMessage} (progress : queue.InProgress pending)
    (more : List ShareableIpcMessage) : queue.InProgress (pending ++ more) := by
  unfold InProgress at progress ⊢
  split
  · rename_i none
    simpa only [none] using progress
  · rename_i message some
    simp only [some] at progress
    obtain ⟨front, data⟩ := progress
    cases pending with
    | nil => contradiction
    | cons first rest => exact ⟨front, data⟩

theorem stopWriting_flags {numWritten : Nat} (now : Int) (held : queue.hasWriteMutex = true)
    (notWaiting : queue.isWaitingForWriteMutex = false ∧ queue.isWaitingForSpaceAvailable = false)
    (progress : queue.InProgress queue.pending)
    (first : queue.inProgressMessage ≠ none → numWritten = 0) :
    ∃ released queue', queue.stopWriting numWritten now = .ok (released, queue') ∧
      FlagsInv queue' ∧ queue'.hasWriteMutex = !released ∧ SameMessages queue queue' := by
  by_cases waits : numWritten = 0 ∧ queue.pending ≠ []
  · refine ⟨false, { queue with isWaitingForSpaceAvailable := true, waitStartTime := now }, ?_,
      ⟨?_, ?_, held, progress, fun _ => held⟩, held, rfl, rfl, rfl, rfl, rfl⟩
    · simp [stopWriting, waits, waitForSpaceAvailable, check, held, notWaiting.2, bind, Except.bind]
    · simp [waits.2, notWaiting.1]
    · simp [notWaiting.1]
  · have none : queue.inProgressMessage = none := by
      by_contra some
      have empty : queue.pending = [] := by
        by_contra nonempty
        exact waits ⟨first some, nonempty⟩
      unfold InProgress at progress
      split at progress
      · contradiction
      · rw [empty] at progress
        exact absurd progress.1 (by simp)
    have idle : queue.inProgressWritten = 0 ∧ queue.inProgressSequence = 0 := by
      simpa only [InProgress, none] using progress
    have ran : queue.stopWriting numWritten now = .ok (true,
        if queue.pending ≠ [] then { queue with
          hasWriteMutex := false, isWaitingForWriteMutex := true, waitStartTime := now }
        else { queue with hasWriteMutex := false }) := by
      rw [stopWriting, if_neg waits]
      simp only [check, none, Option.isNone_none, if_true, bind, Except.bind]
      split <;> rfl
    refine ⟨true, _, ran, ?_⟩
    by_cases empty : queue.pending = []
    · simp only [empty, ne_eq, not_true_eq_false, if_false]
      refine ⟨⟨?_, fun _ => notWaiting.2, notWaiting.2.symm, ?_, fun some => absurd none some⟩, rfl,
        ⟨rfl, empty.symm, rfl, rfl, rfl⟩⟩
      · simp [notWaiting.1, notWaiting.2]
      · simpa only [InProgress, none] using idle
    · simp only [ne_eq, empty, not_false_eq_true, if_true]
      refine ⟨⟨?_, fun _ => notWaiting.2, notWaiting.2.symm, ?_, fun some => absurd none some⟩, rfl,
        ⟨rfl, rfl, rfl, rfl, rfl⟩⟩
      · simp [empty, notWaiting.2]
      · simpa only [InProgress, none] using idle

theorem addMessageToQueue_eq (queue : OutboundQueue) (message : ShareableIpcMessage) (now : Int) :
    ∃ waitStartTime, queue.addMessageToQueue message now = { queue with
      pending := queue.pending ++ [message]
      isWaitingForWriteMutex := !queue.hasWriteMutex || queue.isWaitingForWriteMutex
      waitStartTime := waitStartTime } := by
  cases has : queue.hasWriteMutex <;> cases waiting : queue.isWaitingForWriteMutex
  · exact ⟨now, by simp [addMessageToQueue, maybeWaitForWriteMutex, has, waiting]⟩
  all_goals
    exact ⟨queue.waitStartTime, by simp [addMessageToQueue, maybeWaitForWriteMutex, has, waiting]⟩

theorem addMessageToQueue_flags (flags : FlagsInv queue) (message : ShareableIpcMessage)
    (now : Int) : FlagsInv (queue.addMessageToQueue message now) := by
  obtain ⟨waitStartTime, added⟩ := queue.addMessageToQueue_eq message now
  rw [added]
  have held := flags.held
  have exclusive := flags.exclusive
  refine ⟨?_, ?_, held, flags.progress.append [message], flags.inProgress⟩
  all_goals
    cases space : queue.isWaitingForSpaceAvailable <;>
      cases mutex : queue.isWaitingForWriteMutex <;> simp_all

theorem writePendingMessages_completed (currentProcessId : IpcProcessId) (now : Int)
    (spaces : Nat → Option Nat) {before : OutboundQueue} (same : SameMessages before queue)
    (held : queue.hasWriteMutex = true)
    (notWaiting : queue.isWaitingForWriteMutex = false ∧ queue.isWaitingForSpaceAvailable = false)
    (progress : queue.InProgress before.pending) :
    (∃ outcome, queue.writePendingMessages currentProcessId now spaces = .ok outcome ∧
      FlagsInv outcome.queue ∧ outcome.queue.hasWriteMutex = (!outcome.released) ∧
      Completed before outcome) ∨
    queue.writePendingMessages currentProcessId now spaces = .error .messageSerialized := by
  have writing : queue.Writing before.pending true := ⟨held, progress, fun _ => rfl⟩
  have start : check queue.hasWriteMutex .hasWriteMutex = .ok () := by rw [held]; rfl
  rcases writeMessages_wrote currentProcessId spaces 0 writing with ⟨written, ran, wrote⟩ | unserialized
  · left
    have flags := wrote.sameFlags
    obtain ⟨progress', first⟩ := wrote.progress writing
    obtain ⟨released, queue', stopped, inv, hasWriteMutex, kept⟩ :=
      stopWriting_flags now (flags.hasWriteMutex.trans held)
        ⟨flags.isWaitingForWriteMutex.trans notWaiting.1,
          flags.isWaitingForSpaceAvailable.trans notWaiting.2⟩ progress' fun some => (first some).2
    refine ⟨⟨queue', released, written.successful, written.chunks⟩, ?_, inv, hasWriteMutex,
      .wrote queue written same writing wrote kept rfl rfl⟩
    simp only [writePendingMessages, start, same.pending, ran, stopped, bind, Except.bind]
  · right
    simp only [writePendingMessages, start, same.pending, unserialized, bind, Except.bind]

theorem addWaitHandles_ok (flags : FlagsInv queue) (now : Int) :
    queue.addWaitHandles now = .ok none ∨
    ∃ handles, queue.addWaitHandles now = .ok (some handles) ∧ queue.processHandle = true ∧
      (.writeMutex ∈ handles → queue.isWaitingForWriteMutex = true ∧
        queue.isWaitingForSpaceAvailable = false) ∧
      (.spaceAvailableEvent ∈ handles → queue.isWaitingForSpaceAvailable = true ∧
        queue.isWaitingForWriteMutex = false) := by
  unfold addWaitHandles
  cases alive : queue.processHandle with
  | false => exact .inl rfl
  | true =>
      by_cases nonempty : queue.pending ≠ []
      · rcases flags.pending.mp nonempty with ⟨mutex, space⟩ | ⟨mutex, space⟩
        · by_cases late : now - queue.waitStartTime > kTimeoutMs
          · simp [nonempty, mutex, space, check, late, bind, Except.bind]
          · simp [nonempty, mutex, space, check, late, bind, Except.bind]
        · by_cases late : now - queue.waitStartTime > kTimeoutMs
          · simp [nonempty, mutex, space, check, late, bind, Except.bind]
          · simp [nonempty, mutex, space, check, late, bind, Except.bind]
      · by_cases late : now - queue.lastActiveTime > kTimeoutMs
        · simp [nonempty, late]
        · simp [nonempty, late]

end OutboundQueue

section Step
variable {currentProcessId : IpcProcessId} {state : QueueState}

theorem QueueInv.addMessageToQueue (inv : QueueInv state) (message : ShareableIpcMessage)
    (now : Int) :
    QueueInv { state with queue := state.queue.addMessageToQueue message now } := by
  have flags := OutboundQueue.addMessageToQueue_flags inv.toFlagsInv message now
  obtain ⟨waitStartTime, added⟩ := state.queue.addMessageToQueue_eq message now
  rw [added] at flags ⊢
  refine ⟨flags, inv.owned, inv.processHandle, fun mutex => ?_, fun space => ?_⟩
  · obtain ⟨waiting, notSpace⟩ := inv.reportedMutex mutex
    exact ⟨by simp [waiting], notSpace⟩
  · obtain ⟨space, notWaiting⟩ := inv.reportedSpace space
    exact ⟨space, by simp [notWaiting, inv.held.trans space]⟩

theorem QueueInv.askForHandles (inv : QueueInv state) (now : Int) :
    state.askForHandles now = .ok none ∨
    ∃ handles, state.askForHandles now = .ok (some { state with reported := handles }) ∧
      QueueInv { state with reported := handles } := by
  rcases OutboundQueue.addWaitHandles_ok inv.toFlagsInv now with
    none | ⟨handles, some, alive, mutex, space⟩
  · left
    have released : state.destroy = .ok () := by simp [QueueState.destroy, check, inv.owned]
    simp only [QueueState.askForHandles, none, released, bind, Except.bind]
  · right
    refine ⟨handles, ?_, inv.toFlagsInv, inv.owned, fun _ => alive, mutex, space⟩
    simp only [QueueState.askForHandles, some, bind, Except.bind]

theorem queueInv_completed {queue : OutboundQueue} {ownsWriteMutex : Bool} (flags : FlagsInv queue)
    (owned : ownsWriteMutex = queue.hasWriteMutex) : QueueInv ⟨queue, ownsWriteMutex, []⟩ where
  toFlagsInv := flags
  owned := owned
  processHandle := fun nonempty => absurd rfl nonempty
  reportedMutex := nofun
  reportedSpace := nofun

theorem QueueState.completeWait_of_ok {handle : Handle} {now : Int} {spaces : Nat → Option Nat}
    {outcome : Outcome}
    (ran : state.queue.waitComplete currentProcessId handle now spaces = .ok outcome)
    (owns : outcome.released = true → (state.ownsWriteMutex || handle == .writeMutex) = true) :
    state.completeWait currentProcessId handle now spaces =
      .ok (⟨outcome.queue,
        (state.ownsWriteMutex || handle == .writeMutex) && !outcome.released, []⟩, outcome) := by
  have released : check (!outcome.released || (state.ownsWriteMutex || handle == .writeMutex))
      .mutexReleased = .ok () := by
    cases last : outcome.released with
    | false => rfl
    | true => rw [owns last]; rfl
  simp only [completeWait, ran, released, bind, Except.bind]

theorem QueueInv.completeWait (inv : QueueInv state) (currentProcessId : IpcProcessId)
    {handle : Handle} (reported : handle ∈ state.reported) (now : Int) (spaces : Nat → Option Nat) :
    (∃ state' outcome,
      state.completeWait currentProcessId handle now spaces = .ok (state', outcome) ∧
      QueueInv state' ∧ state'.queue = outcome.queue ∧ Completed state.queue outcome) ∨
    state.completeWait currentProcessId handle now spaces = .error .messageSerialized := by
  have alive := inv.processHandle (List.ne_nil_of_mem reported)
  have isOpen : check state.queue.processHandle .hasProcessHandle = .ok () := by rw [alive]; rfl
  cases handle with
  | writeMutex =>
      obtain ⟨_, notSpace⟩ := inv.reportedMutex reported
      have same : SameMessages state.queue { state.queue with
          lastActiveTime := now, isWaitingForWriteMutex := false, hasWriteMutex := true } :=
        ⟨rfl, rfl, rfl, rfl, rfl⟩
      rcases OutboundQueue.writePendingMessages_completed currentProcessId now spaces same rfl
        ⟨rfl, notSpace⟩ inv.progress with
        ⟨outcome, ran, flags, released, completed⟩ | unserialized
      · left
        have waited : state.queue.waitComplete currentProcessId .writeMutex now spaces =
            .ok outcome := by
          simp only [OutboundQueue.waitComplete, isOpen, ran, bind, Except.bind]
        refine ⟨_, _, QueueState.completeWait_of_ok waited fun _ => by simp, ?_, rfl, completed⟩
        exact queueInv_completed flags (by simp [released])
      · right
        simp only [QueueState.completeWait, OutboundQueue.waitComplete, isOpen, unserialized, bind,
          Except.bind]
  | spaceAvailableEvent =>
      obtain ⟨space, notMutex⟩ := inv.reportedSpace reported
      have held := inv.held.trans space
      have owns := inv.owned.trans held
      have start : check state.queue.hasWriteMutex .hasWriteMutex = .ok () := by rw [held]; rfl
      have same : SameMessages state.queue { state.queue with
          lastActiveTime := now, isWaitingForSpaceAvailable := false } := ⟨rfl, rfl, rfl, rfl, rfl⟩
      rcases OutboundQueue.writePendingMessages_completed currentProcessId now spaces same held
        ⟨notMutex, rfl⟩ inv.progress with
        ⟨outcome, ran, flags, released, completed⟩ | unserialized
      · left
        have waited : state.queue.waitComplete currentProcessId .spaceAvailableEvent now spaces =
            .ok outcome := by
          simp only [OutboundQueue.waitComplete, isOpen, start, ran, bind, Except.bind]
        refine ⟨_, _, QueueState.completeWait_of_ok waited fun _ => by simp [owns], ?_, rfl,
          completed⟩
        exact queueInv_completed flags (by simp [released, owns])
      · right
        simp only [QueueState.completeWait, OutboundQueue.waitComplete, isOpen, start, unserialized,
          bind, Except.bind]
  | process =>
      left
      have waited : state.queue.waitComplete currentProcessId .process now spaces = .ok
          ⟨{ state.queue with lastActiveTime := now, processHandle := false }, false, [], []⟩ := by
        simp only [OutboundQueue.waitComplete, isOpen, bind, Except.bind]
      refine ⟨_, _, QueueState.completeWait_of_ok waited nofun, ?_, rfl,
        .closed ⟨rfl, rfl, rfl, rfl, rfl⟩ rfl rfl⟩
      exact queueInv_completed ⟨inv.pending, inv.exclusive, inv.held, inv.progress, inv.inProgress⟩
        (by simp [inv.owned])

theorem QueueMachine.Inv.step {machine machine' : QueueMachine} (inv : machine.Inv)
    (event : QueueEvent) (moved : machine.step currentProcessId event = some machine') :
    machine'.Inv := by
  cases machine with
  | removed => cases event <;> cases moved
  | aborted assertion => cases event <;> cases moved
  | running state =>
      cases event with
      | addMessageToQueue message now =>
          cases moved
          exact QueueInv.addMessageToQueue inv message now
      | addWaitHandles now =>
          cases moved
          rcases QueueInv.askForHandles inv now with removed | ⟨handles, kept, inv'⟩
          · rw [removed]
            trivial
          · rw [kept]
            exact inv'
      | waitComplete handle abandoned now spaces =>
          simp only [QueueMachine.step] at moved
          split at moved
          · rename_i reported
            cases moved
            rcases QueueInv.completeWait inv currentProcessId reported now spaces with
              ⟨state', outcome, ran, inv', _⟩ | unserialized
            · rw [ran]
              exact inv'
            · rw [unserialized]
              rfl
          · contradiction

end Step

def QueueMachine.FlagsHold : QueueMachine → Prop
  | .running state =>
      (state.queue.pending ≠ [] ↔
        (state.queue.isWaitingForWriteMutex ^^ state.queue.isWaitingForSpaceAvailable) = true) ∧
      (state.queue.hasWriteMutex = true ↔ state.queue.isWaitingForSpaceAvailable = true) ∧
      state.ownsWriteMutex = state.queue.hasWriteMutex ∧
      ∀ message, state.queue.inProgressMessage = some message →
        state.queue.hasWriteMutex = true ∧ state.queue.pending.head? = some message ∧
        ∃ data, message.serializedMessageData = some data ∧
          0 < state.queue.inProgressWritten ∧ state.queue.inProgressWritten < data.bytes.length
  | .removed => True
  | .aborted assertion => assertion = .messageSerialized

theorem flags_between_events {currentProcessId processId : IpcProcessId} {machine : QueueMachine}
    (reach : Lib.Reachable (QueueMachine.step currentProcessId) Lib.anyAction
      (.running (.opened processId)) machine) :
    machine.FlagsHold := by
  have start : QueueMachine.Inv (.running (.opened processId)) := queueInv_opened processId
  have inv := reach.invariant start fun _ event _ inv _ moved =>
    QueueMachine.Inv.step inv event moved
  cases machine with
  | removed => trivial
  | aborted assertion => exact inv
  | running state =>
      have inv : QueueInv state := inv
      have exactlyOne : (state.queue.pending ≠ [] ↔
          (state.queue.isWaitingForWriteMutex ^^ state.queue.isWaitingForSpaceAvailable) = true) := by
        rw [inv.pending]
        cases state.queue.isWaitingForWriteMutex <;>
          cases state.queue.isWaitingForSpaceAvailable <;> simp
      refine ⟨exactlyOne, by rw [inv.held], inv.owned, fun message some => ?_⟩
      have held := inv.inProgress (by simp [some])
      have progress := inv.progress
      simp only [OutboundQueue.InProgress, some] at progress
      exact ⟨held, progress⟩

def pingMessage : ShareableIpcMessage where
  id := 0
  destProcessId := 7
  ipcMessageType := 1
  serializedMessageData := some ⟨[1], by decide, by decide⟩
  callback := true

def fullBuffer : List QueueEvent :=
  [.addMessageToQueue pingMessage 0, .addWaitHandles 0,
    .waitComplete .writeMutex true 0 fun _ => some 0]

theorem fullBuffer_flags :
    (Lib.final (QueueMachine.step 4) Lib.anyAction (.running (.opened 7)) fullBuffer
      (by decide +kernel)).FlagsHold :=
  flags_between_events (Lib.reachable_final _ _)

end ThreadIpc.Ipc

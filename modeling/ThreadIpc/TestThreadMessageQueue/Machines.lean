import ThreadIpc.TestThreadMessageQueue.Model
import ThreadIpc.ThreadQueue.Delivery
import ThreadIpc.ThreadQueue.Wakeup
import ThreadIpc.ThreadStart.Discipline

namespace ThreadIpc.TestThreadMessageQueue
open ThreadQueue (OwnerCall OwnerState Posted step_moved)
open ThreadStart (Parent ChildPhase joinsFirst reached_handshake reached_disciplined)

section Thread

inductive Life
  | unregistered
  | registered
  | starting
  | started
  | joining
  | joined
  | destroyed
  deriving DecidableEq

def Life.allows : Life → Parent → Bool
  | .starting, parent => parent = .waiting || parent = .started
  | .joining, parent => parent = .joining
  | .destroyed, parent => parent = .destroyed
  | _, parent => parent = .idle

def Life.hasStarted : Life → Bool
  | .unregistered | .registered => false
  | _ => true

def Main.life {T : Type} : Main T → Life
  | .initThreadMessageQueue => .unregistered
  | .registerHandler | .start => .registered
  | .starting => .starting
  | .joining => .joining
  | .destroy => .joined
  | .finished => .destroyed
  | _ => .started

variable {T : Type} [DecidableEq T] {program : Program T} {thread after : ThreadStart.State T}
  {life : Life}

structure ThreadInv (program : Program T) (thread : ThreadStart.State T) (life : Life) : Prop where
  reach : Lib.Reachable (ThreadStart.step program.main) joinsFirst
    (.init program.main fun _ => false) thread
  parent : life.allows thread.parent = true
  created : thread.created = if life.hasStarted then 1 else 0
  needsJoin : thread.needsJoin = true ↔ life = .started ∨ life = .joining
  own : life.hasStarted = true → (thread.child 0).id = program.worker
  absent : life.hasStarted = false → (thread.child 0).phase = .terminated
  hooked : (thread.child 0).phase.hasQueue = true → (thread.child 0).hooked = true
  threadId : life = .started → thread.threadId = some program.worker
  handle : ∀ number, thread.handle = some number → number = 0
  queues : ∀ id, thread.messageQueues id = true ↔ id = program.main ∧ life ≠ .unregistered ∨
    id = program.worker ∧ (thread.child 0).phase.hasQueue = true
  awake : thread.startedEvent.Awake ()
  wakes : thread.parent = .waiting → (thread.child 0).phase.hasSignalled = true →
    thread.startedEvent.signal_ = true

theorem ThreadInv.init (program : Program T) :
    ThreadInv program (.init program.main fun _ => false) .unregistered where
  reach := .start
  parent := rfl
  created := rfl
  needsJoin := by
    simp [ThreadStart.State.init]
  own := nofun
  absent := fun _ => rfl
  hooked := nofun
  threadId := nofun
  handle := nofun
  queues := by
    intro id
    simp [ThreadStart.State.init, ChildPhase.hasQueue]
  awake := ThreadQueue.Event.new_awake ()
  wakes := nofun

namespace ThreadInv

theorem handshake (inv : ThreadInv program thread life) : ThreadStart.Handshake thread :=
  reached_handshake (inv.reach.weaken fun _ _ _ => trivial)

theorem disciplined (inv : ThreadInv program thread life) : ThreadStart.Disciplined thread :=
  reached_disciplined inv.reach

theorem child_created (inv : ThreadInv program thread life) (started : life.hasStarted = true) :
    0 < thread.created := by
  rw [inv.created, if_pos started]
  exact Nat.zero_lt_one

theorem main_registered (inv : ThreadInv program thread life) (later : life ≠ .unregistered) :
    thread.messageQueues program.main = true :=
  (inv.queues program.main).mpr (.inl ⟨rfl, later⟩)

theorem worker_registered (inv : ThreadInv program thread life) :
    thread.messageQueues program.worker = true ↔ (thread.child 0).phase.hasQueue = true := by
  rw [inv.queues program.worker]
  refine ⟨?_, fun queue => .inr ⟨rfl, queue⟩⟩
  rintro (⟨same, -⟩ | ⟨-, queue⟩)
  · exact absurd same.symm program.distinct
  · exact queue

theorem moves (inv : ThreadInv program thread life) {action : ThreadStart.Action T} {later : Life}
    (allowed : joinsFirst thread action)
    (moved : ThreadStart.step program.main thread action = some after)
    (parent : later.allows after.parent = true) (started : later.hasStarted = life.hasStarted)
    (registered : life ≠ .unregistered ∧ later ≠ .unregistered) (created : after.created = thread.created)
    (child : after.child = thread.child) (queues : after.messageQueues = thread.messageQueues)
    (needsJoin : after.needsJoin = true ↔ later = .started ∨ later = .joining)
    (threadId : later = .started → after.threadId = some program.worker)
    (handle : after.handle = none ∨ after.handle = thread.handle)
    (awake : after.startedEvent.Awake ())
    (wakes : after.parent = .waiting → (after.child 0).phase.hasSignalled = true →
      after.startedEvent.signal_ = true) : ThreadInv program after later where
  reach := .next inv.reach allowed moved
  parent := parent
  created := by
    rw [created, started, inv.created]
  needsJoin := needsJoin
  own := by
    rw [child, started]
    exact inv.own
  absent := by
    rw [child, started]
    exact inv.absent
  hooked := by
    rw [child]
    exact inv.hooked
  threadId := threadId
  handle := by
    rcases handle with none_ | same
    · rw [none_]
      exact nofun
    · rw [same]
      exact inv.handle
  queues := by
    intro id
    rw [queues, child, inv.queues, iff_of_true registered.1 registered.2]
  awake := awake
  wakes := wakes

theorem register (inv : ThreadInv program thread .unregistered)
    (moved : ThreadStart.step program.main thread (.other program.main true) = some after) :
    ThreadInv program after .registered := by
  have reach := inv.reach.next (show joinsFirst thread (.other program.main true) from trivial) moved
  simp only [ThreadStart.step, Option.ite_none_right_eq_some, Option.some.injEq] at moved
  obtain ⟨-, rfl⟩ := moved
  refine ⟨reach, inv.parent, inv.created, by simpa using inv.needsJoin, by rintro ⟨⟩, inv.absent,
    inv.hooked, by rintro ⟨⟩, inv.handle, ?_, inv.awake, inv.wakes⟩
  intro id
  have queues := inv.queues id
  by_cases same : id = program.main
  · simp [same]
  · simpa [same, Function.update_of_ne same] using queues

theorem start (inv : ThreadInv program thread .registered)
    (moved : ThreadStart.step program.main thread (.start (some program.worker)) = some after) :
    ThreadInv program after .starting := by
  have needsJoin : thread.needsJoin = false := by
    simpa using inv.needsJoin
  have reach := inv.reach.next
    (show joinsFirst thread (.start (some program.worker)) from needsJoin) moved
  have created : thread.created = 0 := inv.created
  simp only [ThreadStart.step, Option.ite_none_right_eq_some, Option.some.injEq] at moved
  obtain ⟨-, rfl⟩ := moved
  have child : ((thread.start (some program.worker)).child 0) =
      ⟨program.worker, .initThreadMessageQueue, false⟩ := by
    simp [ThreadStart.State.start, created]
  refine ⟨reach, rfl, ?_, ?_, fun _ => ?_, by rintro ⟨⟩, fun queue => ?_, by rintro ⟨⟩,
    fun number here => ?_, fun id => ?_, inv.awake, fun _ early => ?_⟩
  · simp [ThreadStart.State.start, created, Life.hasStarted]
  · simpa [ThreadStart.State.start, ThreadStart.State.assert] using needsJoin
  · rw [child]
  · rw [child] at queue
    contradiction
  · exact (Option.some.inj here).symm.trans created
  · rw [child]
    have queues := inv.queues id
    rw [inv.absent rfl] at queues
    simpa [ChildPhase.hasQueue, ThreadStart.State.start, ThreadStart.State.assert] using queues
  · rw [child] at early
    contradiction

theorem start_child (inv : ThreadInv program thread .registered)
    (moved : ThreadStart.step program.main thread (.start (some program.worker)) = some after) :
    after.child 0 = ⟨program.worker, .initThreadMessageQueue, false⟩ := by
  have created : thread.created = 0 := inv.created
  simp only [ThreadStart.step, Option.ite_none_right_eq_some, Option.some.injEq] at moved
  obtain ⟨-, rfl⟩ := moved
  simp [ThreadStart.State.start, created]

theorem wait (inv : ThreadInv program thread .starting)
    (moved : ThreadStart.step program.main thread .wait = some after) :
    ThreadInv program after .starting := by
  have allowed : joinsFirst thread .wait := trivial
  cases ThreadStart.step_moved moved with
  | waitLeft waiting left =>
      exact inv.moves allowed moved rfl rfl ⟨nofun, nofun⟩ rfl rfl rfl inv.needsJoin nofun
        (.inr rfl) (ThreadQueue.Event.waitTest_awake _ _ _) nofun
  | waitStays waiting stays =>
      exact inv.moves allowed moved inv.parent rfl ⟨nofun, nofun⟩ rfl rfl rfl inv.needsJoin nofun
        (.inr rfl) (ThreadQueue.Event.waitTest_awake _ _ _) fun parent early =>
          (ThreadQueue.Event.waitTest_stays stays).trans (inv.wakes parent early)

theorem startReturns (inv : ThreadInv program thread .starting)
    (moved : ThreadStart.step program.main thread .startReturns = some after) :
    ThreadInv program after .started := by
  have allowed : joinsFirst thread .startReturns := trivial
  cases ThreadStart.step_moved moved with
  | startReturns started =>
      obtain ⟨-, threadId⟩ := inv.handshake.started_threadId started
      have created : thread.created = 1 := inv.created
      rw [created, inv.own rfl] at threadId
      have same : thread.startReturns = { thread with
          parent := .idle, returned := thread.returned ++ [(program.worker, 0)], needsJoin := true } := by
        rw [ThreadStart.State.startReturns, threadId, created]
      rw [same] at moved ⊢
      exact inv.moves allowed moved rfl rfl ⟨nofun, nofun⟩ rfl rfl rfl (by simp) (fun _ => threadId)
        (.inr rfl) inv.awake nofun

theorem initThreadMessageQueue (inv : ThreadInv program thread life) (started : life.hasStarted = true)
    (first : (thread.child 0).phase = .initThreadMessageQueue) :
    thread.initThreadMessageQueue program.main 0 = { thread with
      child := Function.update thread.child 0 { thread.child 0 with hooked := true }
      messageQueues := Function.update thread.messageQueues program.worker true } := by
  have absent : thread.messageQueues program.worker ≠ true := by
    intro registered
    have queue := inv.worker_registered.mp registered
    rw [first] at queue
    contradiction
  have hooked : decide (program.worker ≠ program.main) = true :=
    decide_eq_true program.distinct.symm
  simp only [ThreadStart.State.initThreadMessageQueue, inv.own started, if_neg absent, hooked]

theorem child_hooked (inv : ThreadInv program thread life) (started : life.hasStarted = true)
    (queue : (thread.child 0).phase.next.hasQueue = true) :
    ((thread.childStep program.main 0).child 0).hooked = true := by
  cases phase : (thread.child 0).phase with
  | initThreadMessageQueue =>
      simp [ThreadStart.State.childStep, phase, ThreadStart.State.threadMain,
        inv.initThreadMessageQueue started phase, ThreadStart.State.setPhase]
  | threadEndHook | terminate | terminated =>
      rw [phase] at queue
      contradiction
  | setThreadId | setRunning | signal | run | clearRunning =>
      have hooked := inv.hooked (by rw [phase]; rfl)
      simpa [ThreadStart.State.childStep, phase, ThreadStart.State.threadMain,
        ThreadStart.State.touch, ThreadStart.State.setPhase] using hooked

theorem child_queues (inv : ThreadInv program thread life) (started : life.hasStarted = true) (id : T) :
    (thread.childStep program.main 0).messageQueues id = true ↔
      id = program.main ∧ life ≠ .unregistered ∨
      id = program.worker ∧ (thread.child 0).phase.next.hasQueue = true := by
  show (thread.threadMain program.main 0 (thread.child 0).phase).messageQueues id = true ↔ _
  have queues := inv.queues id
  cases phase : (thread.child 0).phase with
  | initThreadMessageQueue =>
      rw [phase] at queues
      rw [ThreadStart.State.threadMain, inv.initThreadMessageQueue started phase]
      by_cases same : id = program.worker
      · simp [same, ChildPhase.next, ChildPhase.hasQueue]
      · simpa [same, Function.update_of_ne same] using queues
  | threadEndHook =>
      have hooked := inv.hooked (by rw [phase]; rfl)
      rw [ThreadStart.State.threadMain, ThreadStart.State.threadEndHook, if_pos hooked,
        inv.own started]
      by_cases same : id = program.worker
      · simp [same, program.distinct.symm, ChildPhase.next, ChildPhase.hasQueue]
      · rw [phase] at queues
        simpa [same, Function.update_of_ne same] using queues
  | setThreadId | setRunning | signal | run | clearRunning | terminate | terminated =>
      rw [phase] at queues
      exact queues

theorem childStep_signal (first : (thread.child 0).phase = .signal) :
    (thread.childStep program.main 0).startedEvent = thread.startedEvent.signal := by
  simp only [ThreadStart.State.childStep, ThreadStart.State.setPhase, first,
    ThreadStart.State.threadMain, ThreadStart.State.touch]

theorem child_awake (inv : ThreadInv program thread life) :
    (thread.childStep program.main 0).startedEvent.Awake () := by
  by_cases signals : (thread.child 0).phase = .signal
  · rw [childStep_signal signals]
    exact ThreadQueue.Event.signal_awake _ _ inv.awake
  · rw [ThreadStart.childStep_startedEvent program.main signals]
    exact inv.awake

theorem child_wakes (inv : ThreadInv program thread life) (waiting : thread.parent = .waiting)
    (signalled : (thread.child 0).phase.next.hasSignalled = true) :
    (thread.childStep program.main 0).startedEvent.signal_ = true := by
  by_cases signals : (thread.child 0).phase = .signal
  · rw [childStep_signal signals]
    exact ThreadQueue.Event.signal_signal_ _
  · rw [ThreadStart.childStep_startedEvent program.main signals]
    apply inv.wakes waiting
    cases phase : (thread.child 0).phase <;> rw [phase] at signalled signals <;>
      first | rfl | contradiction

theorem child (inv : ThreadInv program thread life) (started : life.hasStarted = true)
    (moved : ThreadStart.step program.main thread (.child 0) = some after) :
    ThreadInv program after life ∧ (after.child 0).phase = (thread.child 0).phase.next := by
  have reach := inv.reach.next (show joinsFirst thread (.child 0) from trivial) moved
  cases ThreadStart.step_moved moved with
  | child created =>
      have own := inv.own started
      have same := ThreadStart.childStep_sameParent thread program.main 0
      have next := ThreadStart.childStep_phase_self thread program.main 0
      refine ⟨⟨reach, same.parent ▸ inv.parent, same.created.trans inv.created,
        same.needsJoin ▸ inv.needsJoin, fun _ => (ThreadStart.childStep_id ..).trans own,
        fun none_ => absurd (started.symm.trans none_) nofun, fun queue => ?_, fun up => ?_,
        same.handle ▸ inv.handle, fun id => ?_, ?_, fun waiting early => ?_⟩, next⟩
      · rw [next] at queue
        exact inv.child_hooked started queue
      · by_cases sets : (thread.child 0).phase = .setThreadId
        · rw [ThreadStart.childStep_threadId_set program.main sets, own]
        · rw [ThreadStart.childStep_threadId program.main sets, inv.threadId up]
      · rw [next]
        exact inv.child_queues started id
      · exact inv.child_awake
      · rw [next] at early
        rw [same.parent] at waiting
        exact inv.child_wakes waiting early

theorem join (inv : ThreadInv program thread .started)
    (moved : ThreadStart.step program.main thread .join = some after) :
    ThreadInv program after .joining := by
  have allowed : joinsFirst thread .join := trivial
  cases ThreadStart.step_moved moved with
  | join idle =>
      have same : thread.join = { thread with parent := .joining } := by
        rw [ThreadStart.State.join, inv.threadId rfl]
      rw [same] at moved ⊢
      exact inv.moves allowed moved rfl rfl ⟨nofun, nofun⟩ rfl rfl rfl
        (by simpa using inv.needsJoin) nofun (.inr rfl) inv.awake nofun

theorem joinReturns (inv : ThreadInv program thread .joining)
    (moved : ThreadStart.step program.main thread .joinReturns = some after) :
    ThreadInv program after .joined := by
  have allowed : joinsFirst thread .joinReturns := trivial
  cases ThreadStart.step_moved moved with
  | joinReturns joining terminated =>
      exact inv.moves allowed moved rfl rfl ⟨nofun, nofun⟩ rfl rfl rfl
        (by simp [ThreadStart.State.joinReturns]) nofun (.inl rfl) inv.awake nofun

theorem destroy (inv : ThreadInv program thread .joined)
    (moved : ThreadStart.step program.main thread .destroy = some after) :
    ThreadInv program after .destroyed := by
  have needsJoin : thread.needsJoin = false := by
    simpa using inv.needsJoin
  have allowed : joinsFirst thread .destroy := needsJoin
  cases ThreadStart.step_moved moved with
  | destroy idle =>
      exact inv.moves allowed moved rfl rfl ⟨nofun, nofun⟩ rfl rfl rfl
        (by simpa [ThreadStart.State.destroy, ThreadStart.State.assert] using needsJoin) nofun (.inr rfl)
        inv.awake nofun

theorem spuriousWakeup (inv : ThreadInv program thread life)
    (moved : ThreadStart.step program.main thread .spuriousWakeup = some after) :
    ThreadInv program after life := by
  have reach := inv.reach.next (show joinsFirst thread .spuriousWakeup from trivial) moved
  cases ThreadStart.step_moved moved with
  | spuriousWakeup =>
      exact ⟨reach, inv.parent, inv.created, inv.needsJoin, inv.own, inv.absent, inv.hooked,
        inv.threadId, inv.handle, inv.queues,
        ThreadQueue.Event.spuriousWakeup_awake _ _ _ inv.awake, inv.wakes⟩

end ThreadInv
end Thread

inductive Loop
  | outside
  | running
  | handling
  | left
  deriving DecidableEq

section Conserved
variable {T D : Type}

def Conserved (queue : ThreadQueue.State T D) : Prop :=
  queue.exited = false → queue.dispatched ++ queue.localEventQueue ++ queue.eventQueue = queue.pushed

theorem Conserved.takeFront {queue : ThreadQueue.State T D} {call : OwnerCall} {batch : List (Posted T D)}
    (conserved : Conserved queue) (dispatching : queue.owner = .dispatching call batch) :
    Conserved (queue.takeFront call batch) := by
  have before : queue.exited = false → queue.dispatched ++ batch ++ queue.eventQueue = queue.pushed := by
    simpa only [Conserved, ThreadQueue.State.localEventQueue, dispatching] using conserved
  cases batch with
  | nil => cases call with
      | runOnce => exact before
      | getAndDispatchMessages exitType => exact before
  | cons front rest =>
      rw [ThreadQueue.State.takeFront]
      split
      · rintro ⟨⟩
      · intro inside
        rw [← before inside]
        simp [ThreadQueue.State.localEventQueue]

variable [DecidableEq T] {owner : T}

theorem conserved_step {queue after : ThreadQueue.State T D} {action : ThreadQueue.Action T D}
    (conserved : Conserved queue) (moved : ThreadQueue.step owner queue action = some after) :
    Conserved after := by
  cases step_moved moved with
  | push may =>
      intro inside
      have before := conserved inside
      show queue.dispatched ++ queue.localEventQueue ++ (queue.eventQueue ++ _) = queue.pushed ++ _
      rw [← before, ← List.append_assoc]
  | signal pushed => exact conserved
  | call idle =>
      simpa only [Conserved, ThreadQueue.State.localEventQueue, idle] using conserved
  | waitLeft waiting left =>
      simpa only [Conserved, ThreadQueue.State.localEventQueue, waiting] using conserved
  | waitStays waiting stays => exact conserved
  | spuriousWakeup => exact conserved
  | popMessages popping =>
      simpa [Conserved, ThreadQueue.State.localEventQueue, ThreadQueue.State.popMessages, popping]
        using conserved
  | takeFront dispatching => exact conserved.takeFront dispatching
  | handlerReturns handling =>
      simpa only [Conserved, ThreadQueue.State.localEventQueue, handling] using conserved

theorem reached_conserved {queue : ThreadQueue.State T D} (reach : ThreadQueue.Reached owner queue) :
    Conserved queue :=
  reach.invariant (fun _ => rfl) fun _ _ _ conserved _ moved => conserved_step conserved moved

end Conserved

variable {T : Type} [DecidableEq T]

def posted (sender : T) (messages : List (Message T)) : List (Posted T (Option (TestMessage T))) :=
  messages.map (⟨sender, ·⟩)

omit [DecidableEq T] in
theorem posted_concat (sender : T) (messages : List (Message T)) (message : Message T) :
    posted sender (messages ++ [message]) = posted sender messages ++ [⟨sender, message⟩] :=
  List.map_append

structure QueueInv (owner sender : T) (call : OwnerCall) (signalling : Bool)
    (pushed dispatched : List (Message T)) (loop : Loop)
    (queue : ThreadQueue.State T (Option (TestMessage T))) : Prop where
  reach : ThreadQueue.Reached owner queue
  sending : ∀ thread, queue.sender thread = .pushed ↔ thread = sender ∧ signalling = true
  sends : queue.pushed = posted sender pushed
  dispatches : queue.dispatched = posted sender dispatched
  owner : match loop with
    | .outside => queue.owner = .idle ∧ queue.exited = false
    | .running => (∀ call batch, queue.owner ≠ .handling call batch) ∧
        (queue.owner = .idle → queue.exited = true ∨ call = .runOnce)
    | .handling => ∃ batch, queue.owner = .handling call batch
    | .left => queue.owner = .idle ∧ queue.exited = true
  calls : ∀ current, queue.owner.call? = some current → current = call
  exited : queue.exited = true → queue.owner = .idle ∧ ∃ message later,
    pushed = dispatched ++ message :: later ∧ call = .getAndDispatchMessages message.messageType

variable {owner sender : T} {call : OwnerCall} {signalling : Bool} {pushed dispatched : List (Message T)}
  {loop : Loop} {queue after : ThreadQueue.State T (Option (TestMessage T))}

namespace QueueInv

theorem init (owner sender : T) (call : OwnerCall) :
    QueueInv owner sender call false [] [] .outside .init where
  reach := .start
  sending := by
    intro thread
    simp [ThreadQueue.State.init]
  sends := rfl
  dispatches := rfl
  owner := ⟨rfl, rfl⟩
  calls := nofun
  exited := nofun

theorem idle (inv : QueueInv owner sender call false pushed dispatched loop queue) (thread : T) :
    queue.sender thread = .idle := by
  cases state : queue.sender thread with
  | idle => rfl
  | pushed => exact absurd ((inv.sending thread).mp state).2 nofun

theorem push (inv : QueueInv owner sender call false pushed dispatched loop queue)
    {message : Message T}
    (moved : ThreadQueue.step owner queue (.push sender message) = some after) :
    QueueInv owner sender call true (pushed ++ [message]) dispatched loop after := by
  have reach := inv.reach.next trivial moved
  cases step_moved moved with
  | push _ =>
      refine ⟨reach, fun thread => ?_, ?_, inv.dispatches, inv.owner, inv.calls, fun exited => ?_⟩
      · by_cases same : thread = sender
        · simp [ThreadQueue.State.push, same]
        · simp [ThreadQueue.State.push, same, inv.idle]
      · rw [posted_concat, ← inv.sends]
        rfl
      · obtain ⟨idle, front, later, rfl, same⟩ := inv.exited exited
        exact ⟨idle, front, later ++ [message], List.append_assoc .., same⟩

theorem signal (inv : QueueInv owner sender call true pushed dispatched loop queue)
    (moved : ThreadQueue.step owner queue (.signal sender) = some after) :
    QueueInv owner sender call false pushed dispatched loop after := by
  have reach := inv.reach.next trivial moved
  cases step_moved moved with
  | signal _ =>
      refine ⟨reach, fun thread => ?_, inv.sends, inv.dispatches, inv.owner, inv.calls, inv.exited⟩
      by_cases same : thread = sender
      · simp [ThreadQueue.State.signal, same]
      · simpa [ThreadQueue.State.signal, same] using inv.sending thread

theorem call_ (inv : QueueInv owner sender call signalling pushed dispatched .outside queue)
    (moved : ThreadQueue.step owner queue (.call call) = some after) :
    QueueInv owner sender call signalling pushed dispatched .running after := by
  have reach := inv.reach.next trivial moved
  cases step_moved moved with
  | call _ =>
      refine ⟨reach, inv.sending, inv.sends, inv.dispatches, ⟨nofun, nofun⟩, fun _ same => ?_,
        fun exited => ?_⟩
      · exact (Option.some.inj same).symm
      · exact absurd (inv.owner.2.symm.trans exited) nofun

theorem goesOn (inv : QueueInv owner sender call signalling pushed dispatched loop queue)
    {action : ThreadQueue.Action T (Option (TestMessage T))} {current : OwnerCall}
    (calling : queue.owner.call? = some current)
    (moved : ThreadQueue.step owner queue action = some after)
    (sending : after.sender = queue.sender) (same : after.pushed = queue.pushed)
    (dispatched' : after.dispatched = queue.dispatched) (exited : after.exited = queue.exited)
    (still : after.owner.call? = some current ∨ after.owner = .idle ∧ call = .runOnce)
    (outside : ∀ call batch, after.owner ≠ .handling call batch) :
    QueueInv owner sender call signalling pushed dispatched .running after where
  reach := inv.reach.next trivial moved
  sending := by
    rw [sending]
    exact inv.sending
  sends := same.trans inv.sends
  dispatches := dispatched'.trans inv.dispatches
  owner := by
    refine ⟨outside, fun idle => ?_⟩
    rcases still with still | ⟨-, once⟩
    · rw [idle] at still
      contradiction
    · exact .inr once
  calls := by
    intro later made
    rcases still with still | ⟨idle, -⟩
    · exact Option.some.inj (made.symm.trans still) ▸ inv.calls current calling
    · rw [idle] at made
      contradiction
  exited := by
    intro gone
    have idle := (inv.exited (exited.symm.trans gone)).1
    rw [idle] at calling
    contradiction

theorem wait (inv : QueueInv owner sender call signalling pushed dispatched .running queue)
    (moved : ThreadQueue.step owner queue .wait = some after) :
    QueueInv owner sender call signalling pushed dispatched .running after := by
  cases step_moved moved with
  | waitLeft waiting _ =>
      exact inv.goesOn (congrArg OwnerState.call? waiting) moved rfl rfl rfl rfl (.inl rfl) nofun
  | waitStays waiting _ =>
      exact inv.goesOn (congrArg OwnerState.call? waiting) moved rfl rfl rfl rfl
        (.inl (congrArg OwnerState.call? waiting)) inv.owner.1

theorem popMessages (inv : QueueInv owner sender call signalling pushed dispatched .running queue)
    (moved : ThreadQueue.step owner queue .popMessages = some after) :
    QueueInv owner sender call signalling pushed dispatched .running after := by
  cases step_moved moved with
  | popMessages popping =>
      exact inv.goesOn (congrArg OwnerState.call? popping) moved rfl rfl rfl rfl (.inl rfl) nofun

theorem handlerReturns (inv : QueueInv owner sender call signalling pushed dispatched .handling queue)
    (moved : ThreadQueue.step owner queue .handlerReturns = some after) :
    QueueInv owner sender call signalling pushed dispatched .running after := by
  cases step_moved moved with
  | handlerReturns handling =>
      exact inv.goesOn (congrArg OwnerState.call? handling) moved rfl rfl rfl rfl (.inl rfl) nofun

theorem spuriousWakeup (inv : QueueInv owner sender call signalling pushed dispatched loop queue)
    (moved : ThreadQueue.step owner queue .spuriousWakeup = some after) :
    QueueInv owner sender call signalling pushed dispatched loop after := by
  have reach := inv.reach.next trivial moved
  cases step_moved moved with
  | spuriousWakeup =>
      exact ⟨reach, inv.sending, inv.sends, inv.dispatches, inv.owner, inv.calls, inv.exited⟩

theorem batch_pushed (inv : QueueInv owner sender call signalling pushed dispatched loop queue)
    (inside : queue.exited = false) : ∃ later, pushed = dispatched ++ later ∧
      queue.localEventQueue ++ queue.eventQueue = posted sender later := by
  have all := reached_conserved inv.reach inside
  rw [inv.dispatches, inv.sends, List.append_assoc] at all
  obtain ⟨first, later, parts, same, rest⟩ := List.append_eq_map_iff.mp all
  have injective : Function.Injective fun message : Message T =>
      (⟨sender, message⟩ : Posted T (Option (TestMessage T))) := fun _ _ equal =>
    congrArg Posted.message equal
  exact ⟨later, injective.list_map same ▸ parts, rest.symm⟩

theorem takeFront (inv : QueueInv owner sender call signalling pushed dispatched .running queue)
    {current : OwnerCall} {batch : List (Posted T (Option (TestMessage T)))}
    (dispatching : queue.owner = .dispatching current batch)
    (moved : ThreadQueue.step owner queue .takeFront = some after) :
    match batch with
    | [] => QueueInv owner sender call signalling pushed dispatched .running after
    | front :: _ => (∃ later, pushed = dispatched ++ front.message :: later) ∧
        if current = .getAndDispatchMessages front.message.messageType then
          QueueInv owner sender call signalling pushed dispatched .running after
        else QueueInv owner sender call signalling pushed (dispatched ++ [front.message]) .handling
          after := by
  have reach := inv.reach.next trivial moved
  have calling : queue.owner.call? = some current := congrArg OwnerState.call? dispatching
  have same := inv.calls current calling
  have inside : queue.exited = false := by
    by_contra exited
    have idle := (inv.exited (by simpa using exited)).1
    rw [idle] at dispatching
    contradiction
  have taken : after = queue.takeFront current batch := by
    rw [ThreadQueue.step, dispatching] at moved
    exact (Option.some.inj moved).symm
  subst taken
  cases batch with
  | nil => cases current with
      | runOnce =>
          exact inv.goesOn calling moved rfl rfl rfl rfl (.inr ⟨rfl, same.symm⟩) (by rintro _ _ ⟨⟩)
      | getAndDispatchMessages =>
          exact inv.goesOn calling moved rfl rfl rfl rfl (.inl rfl) (by rintro _ _ ⟨⟩)
  | cons front rest =>
      obtain ⟨later, parts, waiting⟩ := inv.batch_pushed inside
      rw [ThreadQueue.State.localEventQueue, dispatching] at waiting
      cases later with
      | nil => cases waiting
      | cons message later =>
          have first : front = ⟨sender, message⟩ := (List.cons.inj waiting).1
          subst first
          refine ⟨⟨later, parts⟩, ?_⟩
          split
          · rename_i exits
            have left : queue.takeFront current (⟨sender, message⟩ :: rest) =
                { queue with owner := .idle, exited := true } := if_pos exits
            rw [left] at reach ⊢
            exact ⟨reach, inv.sending, inv.sends, inv.dispatches,
              ⟨by rintro _ _ ⟨⟩, fun _ => .inl rfl⟩, by rintro _ ⟨⟩,
              fun _ => ⟨rfl, message, later, parts, same.symm.trans exits⟩⟩
          · rename_i plain
            have handled : queue.takeFront current (⟨sender, message⟩ :: rest) = { queue with
                owner := .handling current rest
                dispatched := queue.dispatched ++ [⟨sender, message⟩] } := if_neg plain
            rw [handled] at reach ⊢
            refine ⟨reach, inv.sending, inv.sends, ?_, ⟨rest, by rw [same]⟩,
              fun later made => Option.some.inj made ▸ same,
              fun exited => ?_⟩
            · rw [posted_concat, ← inv.dispatches]
            · cases inside.symm.trans exited

end QueueInv
end ThreadIpc.TestThreadMessageQueue

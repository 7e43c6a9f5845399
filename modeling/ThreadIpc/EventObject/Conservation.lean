import ThreadIpc.EventObject.Model

namespace ThreadIpc.EventObject

variable {T : Type}

def Phase.resets : Phase → Nat
  | .leaving _ .succeeded => 1
  | _ => 0

def Outcome.resets : Outcome → Nat
  | .succeeded => 1
  | .signalled | .gaveUp => 0

def State.leavingWaits (state : State T) : Nat :=
  match state.owner with
  | some thread => (state.phase thread).resets
  | none => 0

def State.returnedWaits (state : State T) : Nat :=
  (state.returned.filter fun call => call.outcome = .succeeded).length

theorem notify_holdsMutex (phase : Phase) : phase.notify.holdsMutex = phase.holdsMutex := by
  cases phase <;> rfl

theorem notify_resets (phase : Phase) : phase.notify.resets = phase.resets := by
  cases phase <;> rfl

theorem notify_ne_blocked (phase : Phase) (call : Call) : phase.notify ≠ .blocked call := by
  cases phase <;> simp [Phase.notify]

theorem afterWait_holdsMutex (waitTimedOut : Bool) (call : Call) :
    (call.afterWait waitTimedOut).holdsMutex = true := by
  cases call <;> rfl

theorem afterWait_resets (waitTimedOut : Bool) (call : Call) :
    (call.afterWait waitTimedOut).resets = 0 := by
  cases call <;> rfl

theorem afterWait_ne_blocked (waitTimedOut : Bool) (call other : Call) :
    call.afterWait waitTimedOut ≠ .blocked other := by
  cases call <;> simp [Call.afterWait]

variable [DecidableEq T]

section Tests
variable {state : State T} {thread : T} {call : Call}

theorem testSignal_clear (clear : state.signal_ = false) :
    state.testSignal thread =
      { state.move thread .broadcasting with
        signal_ := true
        signalsFoundClear := state.signalsFoundClear + 1 } :=
  if_neg (by rw [clear]; exact Bool.false_ne_true)

theorem testWait_signalled (signalled : state.signal_ = true) :
    state.testWait thread call =
      { state.move thread (.leaving call .succeeded) with
        signal_ := false
        successfulWaits := state.successfulWaits + 1
        resets := Function.update state.resets thread (state.resets thread + 1) } :=
  if_pos signalled

theorem testWait_clear (clear : state.signal_ = false) :
    state.testWait thread call = { state.move thread (.blocked call) with owner := none } :=
  if_neg (by rw [clear]; exact Bool.false_ne_true)

end Tests

structure Quiet (before phase : Phase) : Prop where
  inside : before ≠ .outside
  notBroadcasting : before ≠ .broadcasting
  notBlocked : ∀ call, phase ≠ .blocked call
  before_resets : before.resets = 0
  resets : phase.resets = 0

inductive Moved (state : State T) : State T → Prop
  | begin {thread call} (outside : state.phase thread = .outside) :
      Moved state (state.begin thread call)
  | take {thread phase} (free : state.owner = none) (holds : phase.holdsMutex = true)
      (quiet : Quiet (state.phase thread) phase) : Moved state (state.take thread phase)
  | quiet {thread phase} (same : phase.holdsMutex = (state.phase thread).holdsMutex)
      (quiet : Quiet (state.phase thread) phase) : Moved state (state.move thread phase)
  | signals {thread} (testing : state.phase thread = .testing .signal)
      (clear : state.signal_ = false) : Moved state (state.testSignal thread)
  | succeeds {thread call} (testing : state.phase thread = .testing call)
      (signalled : state.signal_ = true) : Moved state (state.testWait thread call)
  | blocks {thread call} (testing : state.phase thread = .testing call)
      (clear : state.signal_ = false) : Moved state (state.testWait thread call)
  | signalAll {thread} (broadcasting : state.phase thread = .broadcasting) :
      Moved state (state.signalAll.move thread (.leaving .signal .signalled))
  | unlock {thread call outcome} (leaving : state.phase thread = .leaving call outcome) :
      Moved state (state.unlock thread call outcome)

theorem test_moved {state : State T} {thread : T} {call : Call}
    (testing : state.phase thread = .testing call) : Moved state (state.test thread call) := by
  have waits : Moved state (state.testWait thread call) := by
    cases signalled : state.signal_ with
    | true => exact .succeeds testing signalled
    | false => exact .blocks testing signalled
  cases call with
  | signal =>
      cases signalled : state.signal_ with
      | true =>
          have same : state.testSignal thread = state.move thread (.leaving .signal .signalled) := by
            rw [State.testSignal, signalled]
            rfl
          show Moved state (state.testSignal thread)
          rw [same]
          exact .quiet (by rw [testing]; rfl) (by rw [testing]; constructor <;> simp [Phase.resets])
      | false => exact .signals testing signalled
  | wait => exact waits
  | waitWithTimeout timeout => exact waits

theorem checkWait_moved {state : State T} {thread : T} {timeout : Int32} {waitTimedOut : Bool}
    (waited : state.phase thread = .waited timeout waitTimedOut) (elapsed : Int32) :
    Moved state (state.checkWait thread timeout waitTimedOut elapsed) := by
  have moves {phase : Phase} (holds : phase.holdsMutex = true)
      (notBlocked : ∀ call, phase ≠ .blocked call) (resets : phase.resets = 0) :
      Moved state (state.move thread phase) := by
    refine .quiet (by rw [waited, holds]; rfl) ?_
    rw [waited]
    exact ⟨by simp, by simp, notBlocked, rfl, resets⟩
  unfold State.checkWait
  split
  · exact moves rfl (by simp) rfl
  · split
    · exact moves rfl (by simp) rfl
    · split
      · exact moves rfl (by simp) rfl
      · exact moves rfl (by simp) rfl

theorem step_moved {state after : State T} {action : Action T}
    (moved : step state action = some after) : Moved state after := by
  cases action with
  | call thread call =>
      simp only [step] at moved
      split at moved
      · rename_i outside
        exact Option.some.inj moved ▸ .begin outside
      · contradiction
  | lock thread =>
      simp only [step] at moved
      split at moved
      · rename_i free locking
        exact Option.some.inj moved ▸ .take free rfl
          (by rw [locking]; constructor <;> simp [Phase.resets])
      · rename_i call waitTimedOut free woken
        refine Option.some.inj moved ▸ .take free (afterWait_holdsMutex _ _) ?_
        rw [woken]
        exact ⟨by simp, by simp, afterWait_ne_blocked _ _, rfl, afterWait_resets _ _⟩
      · contradiction
  | test thread =>
      simp only [step] at moved
      split at moved
      · rename_i testing
        exact Option.some.inj moved ▸ test_moved testing
      · contradiction
  | timedwaitRefuses thread =>
      simp only [step] at moved
      split at moved
      · rename_i testing
        exact Option.some.inj moved ▸ .quiet (by rw [testing]; rfl)
          (by rw [testing]; constructor <;> simp [Phase.resets])
      · contradiction
  | signalAll thread =>
      simp only [step] at moved
      split at moved
      · rename_i broadcasting
        exact Option.some.inj moved ▸ .signalAll broadcasting
      · contradiction
  | wakeup thread =>
      simp only [step] at moved
      split at moved
      · rename_i blocked
        exact Option.some.inj moved ▸ .quiet (by rw [blocked]; rfl)
          (by rw [blocked]; constructor <;> simp [Phase.resets])
      · contradiction
  | timeout thread =>
      simp only [step] at moved
      split at moved
      · rename_i blocked
        exact Option.some.inj moved ▸ .quiet (by rw [blocked]; rfl)
          (by rw [blocked]; constructor <;> simp [Phase.resets])
      · rename_i woken
        exact Option.some.inj moved ▸ .quiet (by rw [woken]; rfl)
          (by rw [woken]; constructor <;> simp [Phase.resets])
      · contradiction
  | checkWait thread elapsed =>
      simp only [step] at moved
      split at moved
      · rename_i waited
        exact Option.some.inj moved ▸ checkWait_moved waited elapsed
      · contradiction
  | unlock thread =>
      simp only [step] at moved
      split at moved
      · rename_i leaving
        exact Option.some.inj moved ▸ .unlock leaving
      · contradiction

def Exclusive (state : State T) : Prop :=
  ∀ thread, (state.phase thread).holdsMutex = true ↔ state.owner = some thread

theorem Exclusive.move {state : State T} (exclusive : Exclusive state) {thread : T} {phase : Phase}
    (same : phase.holdsMutex = (state.phase thread).holdsMutex) :
    Exclusive (state.move thread phase) := by
  intro other
  show (Function.update state.phase thread phase other).holdsMutex = true ↔ state.owner = some other
  by_cases here : other = thread
  · rw [here, Function.update_self, same]
    exact exclusive thread
  · rw [Function.update_of_ne here]
    exact exclusive other

theorem Exclusive.take {state : State T} (exclusive : Exclusive state) {thread : T} {phase : Phase}
    (free : state.owner = none) (holds : phase.holdsMutex = true) :
    Exclusive (state.take thread phase) := by
  intro other
  show (Function.update state.phase thread phase other).holdsMutex = true ↔ some thread = some other
  by_cases here : other = thread
  · simp [here, holds]
  · rw [Function.update_of_ne here, exclusive other, free]
    simp [Ne.symm here]

theorem Exclusive.give {state : State T} (exclusive : Exclusive state) {thread : T} {phase : Phase}
    (held : (state.phase thread).holdsMutex = true) (gives : phase.holdsMutex = false) (other : T) :
    (Function.update state.phase thread phase other).holdsMutex = true ↔ none = some other := by
  by_cases here : other = thread
  · simp [here, gives]
  · rw [Function.update_of_ne here, exclusive other, (exclusive thread).mp held]
    simp [Ne.symm here]

theorem exclusive_step {state after : State T} (exclusive : Exclusive state)
    (moved : Moved state after) : Exclusive after := by
  cases moved with
  | begin outside => exact exclusive.move (by rw [outside]; rfl)
  | take free holds quiet => exact exclusive.take free holds
  | quiet same quiet => exact exclusive.move same
  | @signals thread testing clear =>
      rw [testSignal_clear clear]
      have same : Phase.broadcasting.holdsMutex = (state.phase thread).holdsMutex := by
        rw [testing]
        rfl
      exact exclusive.move same
  | @succeeds thread call testing signalled =>
      rw [testWait_signalled signalled]
      have same : (Phase.leaving call .succeeded).holdsMutex = (state.phase thread).holdsMutex := by
        rw [testing]
        rfl
      exact exclusive.move same
  | @blocks thread call testing clear =>
      rw [testWait_clear clear]
      exact exclusive.give (by rw [testing]; rfl) rfl
  | @signalAll thread broadcasting =>
      have notified : Exclusive state.signalAll := by
        intro other
        show (state.phase other).notify.holdsMutex = true ↔ state.owner = some other
        rw [notify_holdsMutex]
        exact exclusive other
      refine notified.move ?_
      show _ = (state.phase thread).notify.holdsMutex
      rw [broadcasting]
      rfl
  | unlock leaving => exact exclusive.give (by rw [leaving]; rfl) rfl

theorem reached_exclusive {state : State T} (reach : Reached state) : Exclusive state :=
  reach.invariant (fun _ => by simp [State.init, Phase.holdsMutex])
    fun _ _ _ exclusive _ moved => exclusive_step exclusive (step_moved moved)

def Awake (state : State T) : Prop :=
  state.signal_ = true → ∀ thread call, state.phase thread = .blocked call →
    ∃ signaller, state.phase signaller = .broadcasting

theorem Awake.update {phases : T → Phase} {thread : T} {phase : Phase}
    (awake : ∀ waiter call, phases waiter = .blocked call → ∃ signaller, phases signaller = .broadcasting)
    (notBroadcasting : phases thread ≠ .broadcasting) (notBlocked : ∀ call, phase ≠ .blocked call)
    (waiter : T) (call : Call) (blocked : Function.update phases thread phase waiter = .blocked call) :
    ∃ signaller, Function.update phases thread phase signaller = .broadcasting := by
  by_cases here : waiter = thread
  · rw [here, Function.update_self] at blocked
    exact absurd blocked (notBlocked call)
  · rw [Function.update_of_ne here] at blocked
    obtain ⟨signaller, broadcasting⟩ := awake waiter call blocked
    refine ⟨signaller, ?_⟩
    rw [Function.update_of_ne]
    · exact broadcasting
    · intro same
      exact notBroadcasting (same ▸ broadcasting)

theorem awake_step {state after : State T} (awake : Awake state) (moved : Moved state after) :
    Awake after := by
  cases moved with
  | @begin thread call outside =>
      intro signalled
      exact Awake.update (awake signalled) (by simp [outside]) (by simp)
  | take free holds quiet =>
      intro signalled
      exact Awake.update (awake signalled) quiet.notBroadcasting quiet.notBlocked
  | quiet same quiet =>
      intro signalled
      exact Awake.update (awake signalled) quiet.notBroadcasting quiet.notBlocked
  | @signals thread testing clear =>
      rw [testSignal_clear clear]
      intro _ _ _ _
      refine ⟨thread, ?_⟩
      show Function.update state.phase thread .broadcasting thread = .broadcasting
      rw [Function.update_self]
  | succeeds testing signalled =>
      rw [testWait_signalled signalled]
      exact fun set => absurd set Bool.false_ne_true
  | blocks testing clear =>
      rw [testWait_clear clear]
      intro signalled
      exact absurd (clear.symm.trans signalled) Bool.false_ne_true
  | @signalAll thread broadcasting =>
      intro _ waiter call blocked
      change Function.update (fun thread => (state.phase thread).notify) thread
        (.leaving .signal .signalled) waiter = .blocked call at blocked
      by_cases here : waiter = thread
      · rw [here, Function.update_self] at blocked
        contradiction
      · rw [Function.update_of_ne here] at blocked
        exact absurd blocked (notify_ne_blocked _ _)
  | unlock leaving =>
      intro signalled
      exact Awake.update (awake signalled) (by simp [leaving]) (by simp)

theorem reached_awake {state : State T} (reach : Reached state) : Awake state :=
  reach.invariant (fun signalled => absurd signalled Bool.false_ne_true)
    fun _ _ _ awake _ moved => awake_step awake (step_moved moved)

def Conserved (state : State T) : Prop :=
  state.successfulWaits + state.signal_.toNat = state.signalsFoundClear

theorem conserved_step {state after : State T} (conserved : Conserved state)
    (moved : Moved state after) : Conserved after := by
  unfold Conserved at conserved
  cases moved with
  | begin outside => exact conserved
  | take free holds quiet => exact conserved
  | quiet same quiet => exact conserved
  | signals testing clear =>
      rw [testSignal_clear clear]
      show state.successfulWaits + 1 = state.signalsFoundClear + 1
      rw [← conserved, clear]
      rfl
  | succeeds testing signalled =>
      rw [testWait_signalled signalled]
      show state.successfulWaits + 1 + 0 = state.signalsFoundClear
      rw [← conserved, signalled]
      rfl
  | blocks testing clear =>
      rw [testWait_clear clear]
      exact conserved
  | signalAll broadcasting => exact conserved
  | unlock leaving => exact conserved

theorem reached_conserved {state : State T} (reach : Reached state) : Conserved state :=
  Lib.Reachable.invariant (show Conserved (State.init : State T) from rfl)
    (fun _ _ _ conserved _ moved => conserved_step conserved (step_moved moved)) reach

structure Accounted (state : State T) : Prop where
  running : ∀ thread, state.phase thread ≠ .outside → state.resets thread = (state.phase thread).resets
  returned : ∀ call ∈ state.returned, call.resets = call.outcome.resets

theorem running_update {phases : T → Phase} {before resets : T → Nat} {thread : T} {phase : Phase}
    (running : ∀ other, phases other ≠ .outside → before other = (phases other).resets)
    (others : ∀ other, other ≠ thread → resets other = before other)
    (here : phase ≠ .outside → resets thread = phase.resets) (other : T)
    (inside : Function.update phases thread phase other ≠ .outside) :
    resets other = (Function.update phases thread phase other).resets := by
  by_cases same : other = thread
  · rw [same, Function.update_self] at inside ⊢
    exact here inside
  · rw [Function.update_of_ne same] at inside ⊢
    rw [others other same]
    exact running other inside

theorem Accounted.moves {state : State T} (accounted : Accounted state) {thread : T} {phase : Phase}
    (quiet : Quiet (state.phase thread) phase) : Accounted (state.move thread phase) := by
  have here : state.resets thread = phase.resets := by
    rw [accounted.running thread quiet.inside, quiet.before_resets, quiet.resets]
  exact ⟨running_update accounted.running (fun _ _ => rfl) (fun _ => here), accounted.returned⟩

omit [DecidableEq T] in
theorem Accounted.testing {state : State T} (accounted : Accounted state) {thread : T} {call : Call}
    (testing : state.phase thread = .testing call) : state.resets thread = 0 := by
  rw [accounted.running thread (by simp [testing]), testing]
  rfl

theorem accounted_step {state after : State T} (accounted : Accounted state)
    (moved : Moved state after) : Accounted after := by
  cases moved with
  | @begin thread call outside =>
      refine ⟨?_, accounted.returned⟩
      exact running_update accounted.running (fun other elsewhere => Function.update_of_ne elsewhere _ _)
        (fun _ => Function.update_self _ _ _)
  | take free holds quiet =>
      exact ⟨(accounted.moves quiet).running, accounted.returned⟩
  | quiet same quiet => exact accounted.moves quiet
  | signals testing clear =>
      rw [testSignal_clear clear]
      refine ⟨?_, accounted.returned⟩
      exact running_update accounted.running (fun _ _ => rfl) (fun _ => accounted.testing testing)
  | @succeeds thread call testing signalled =>
      rw [testWait_signalled signalled]
      refine ⟨?_, accounted.returned⟩
      refine running_update accounted.running
        (fun other elsewhere => Function.update_of_ne elsewhere _ _) fun _ => ?_
      show Function.update state.resets thread (state.resets thread + 1) thread = 1
      rw [Function.update_self, accounted.testing testing]
  | blocks testing clear =>
      rw [testWait_clear clear]
      refine ⟨?_, accounted.returned⟩
      exact running_update accounted.running (fun _ _ => rfl) (fun _ => accounted.testing testing)
  | @signalAll thread broadcasting =>
      have notified : ∀ other, (state.phase other).notify ≠ .outside →
          state.resets other = (state.phase other).notify.resets := by
        intro other inside
        rw [notify_resets]
        apply accounted.running other
        intro outside
        exact inside (by rw [outside]; rfl)
      refine ⟨running_update notified (fun _ _ => rfl) fun _ => ?_, accounted.returned⟩
      show state.resets thread = 0
      rw [accounted.running thread (by simp [broadcasting]), broadcasting]
      rfl
  | @unlock thread call outcome leaving =>
      refine ⟨?_, ?_⟩
      · exact running_update accounted.running (fun _ _ => rfl) (fun inside => absurd rfl inside)
      · intro call member
        rcases List.mem_append.mp member with earlier | now
        · exact accounted.returned call earlier
        · rw [List.mem_singleton.mp now]
          show state.resets thread = outcome.resets
          rw [accounted.running thread (by simp [leaving]), leaving]
          cases outcome <;> rfl

theorem reached_accounted {state : State T} (reach : Reached state) : Accounted state :=
  reach.invariant ⟨fun _ inside => absurd rfl inside, by simp [State.init]⟩
    fun _ _ _ accounted _ moved => accounted_step accounted (step_moved moved)

def Counted (state : State T) : Prop :=
  state.successfulWaits = state.returnedWaits + state.leavingWaits

theorem leavingWaits_move (state : State T) {thread : T} {phase : Phase}
    (before : (state.phase thread).resets = 0) (resets : phase.resets = 0) :
    (state.move thread phase).leavingWaits = state.leavingWaits := by
  unfold State.leavingWaits
  show (match state.owner with
    | some other => (Function.update state.phase thread phase other).resets
    | none => 0) = _
  cases state.owner with
  | none => rfl
  | some other =>
      by_cases here : other = thread
      · simp [here, before, resets]
      · simp [here]

omit [DecidableEq T] in
theorem leavingWaits_held {state : State T} {thread : T} (held : state.owner = some thread) :
    state.leavingWaits = (state.phase thread).resets := by
  rw [State.leavingWaits, held]

omit [DecidableEq T] in
theorem leavingWaits_free {state : State T} (free : state.owner = none) : state.leavingWaits = 0 := by
  rw [State.leavingWaits, free]

theorem counted_step {state after : State T} (exclusive : Exclusive state) (counted : Counted state)
    (moved : Moved state after) : Counted after := by
  have held {thread : T} {phase : Phase} (here : state.phase thread = phase)
      (holds : phase.holdsMutex = true) : state.leavingWaits = phase.resets := by
    rw [← here] at holds ⊢
    exact leavingWaits_held ((exclusive thread).mp holds)
  unfold Counted at counted ⊢
  cases moved with
  | @begin thread call outside =>
      rw [show (state.begin thread call).leavingWaits = state.leavingWaits from
        leavingWaits_move state (by rw [outside]; rfl) rfl]
      exact counted
  | @take thread phase free holds quiet =>
      have none_leaves : (state.take thread phase).leavingWaits = 0 := by
        rw [leavingWaits_held rfl]
        show (Function.update state.phase thread phase thread).resets = 0
        rw [Function.update_self, quiet.resets]
      rw [none_leaves]
      rw [leavingWaits_free free] at counted
      exact counted
  | quiet same quiet =>
      rw [leavingWaits_move state quiet.before_resets quiet.resets]
      exact counted
  | @signals thread testing clear =>
      rw [testSignal_clear clear]
      show state.successfulWaits = state.returnedWaits + (state.move thread .broadcasting).leavingWaits
      rw [leavingWaits_move state (by rw [testing]; rfl) rfl]
      exact counted
  | @succeeds thread call testing signalled =>
      have owns : state.owner = some thread := (exclusive thread).mp (by rw [testing]; rfl)
      rw [held testing rfl] at counted
      have still : (state.testWait thread call).owner = some thread := by
        rw [testWait_signalled signalled]
        exact owns
      rw [leavingWaits_held still, testWait_signalled signalled]
      show state.successfulWaits + 1 = state.returnedWaits +
        (Function.update state.phase thread (.leaving call .succeeded) thread).resets
      rw [Function.update_self, counted]
      rfl
  | blocks testing clear =>
      rw [testWait_clear clear]
      rw [held testing rfl] at counted
      exact counted
  | @signalAll thread broadcasting =>
      have notified : state.signalAll.leavingWaits = state.leavingWaits := by
        unfold State.leavingWaits State.signalAll
        simp only [notify_resets]
      rw [leavingWaits_move _ ((notify_resets _).trans (by rw [broadcasting]; rfl)) rfl, notified]
      exact counted
  | @unlock thread call outcome leaving =>
      rw [held leaving rfl] at counted
      rw [show (state.unlock thread call outcome).leavingWaits = 0 from leavingWaits_free rfl]
      have returned : (state.unlock thread call outcome).returnedWaits =
          state.returnedWaits + outcome.resets := by
        unfold State.returnedWaits State.unlock
        rw [List.filter_append, List.length_append]
        cases outcome <;> rfl
      rw [returned]
      show state.successfulWaits = state.returnedWaits + outcome.resets + 0
      rw [counted]
      cases outcome <;> rfl

theorem reached_counted {state : State T} (reach : Reached state) : Counted state :=
  Lib.Reachable.invariant_beside (fun _ reach => reached_exclusive reach)
    (show Counted (State.init : State T) from rfl)
    (fun _ _ _ exclusive counted _ moved => counted_step exclusive counted (step_moved moved)) reach

theorem event_conservation {state : State T} (reach : Reached state) :
    state.successfulWaits + state.signal_.toNat = state.signalsFoundClear ∧
    state.successfulWaits = state.returnedWaits + state.leavingWaits ∧
    (state.signal_ = true → ∀ waiter call, state.phase waiter = .blocked call →
      ∃ signaller, state.owner = some signaller ∧ state.phase signaller = .broadcasting) ∧
    (∀ call ∈ state.returned, call.resets = if call.outcome = .succeeded then 1 else 0) := by
  refine ⟨reached_conserved reach, reached_counted reach, ?_, ?_⟩
  · intro signalled waiter call blocked
    obtain ⟨signaller, broadcasting⟩ := reached_awake reach signalled waiter call blocked
    refine ⟨signaller, ?_, broadcasting⟩
    exact (reached_exclusive reach signaller).mp (by rw [broadcasting]; rfl)
  · intro call returned
    rw [(reached_accounted reach).returned call returned]
    cases call.outcome <;> rfl

/-- The timeout of one waiter races with the signal, the other waiter takes it. -/
def racingRun : List (Action Bool) :=
  [.call true (.waitWithTimeout 10), .lock true, .test true, .call false .signal, .lock false,
   .test false, .signalAll false, .unlock false, .timeout true, .lock true, .checkWait true 11,
   .unlock true, .call false .wait, .lock false, .test false, .unlock false]

def raced : State Bool :=
  Lib.final step Lib.anyAction .init racingRun (by decide)

theorem raced_conservation :
    raced.returned = [⟨false, .signal, .signalled, 0⟩, ⟨true, .waitWithTimeout 10, .gaveUp, 0⟩,
      ⟨false, .wait, .succeeded, 1⟩] ∧
    raced.successfulWaits + raced.signal_.toNat = raced.signalsFoundClear := by
  have reach : Reached raced := Lib.reachable_final racingRun (by decide)
  exact ⟨by decide, (event_conservation reach).1⟩

end ThreadIpc.EventObject

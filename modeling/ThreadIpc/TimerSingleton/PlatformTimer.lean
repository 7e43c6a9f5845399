import ThreadIpc.TimerSingleton.Order

/-!
# The platform timer of glib

`SetNextFire` does not keep the number of the source that it adds, so that `Cancel` has nothing to
remove. Only a source that is dispatched goes away.
-/

namespace ThreadIpc.TimerSingleton

structure Source where
  id : Nat
  due : Int
  added : Int
  deriving DecidableEq

structure PlatformTimer where
  timerId : Nat
  sources : List Source
  latest : Nat

def PlatformTimer.init : PlatformTimer := ⟨0, [], 0⟩

def PlatformTimer.remove (timer : PlatformTimer) (id : Nat) : PlatformTimer :=
  { timer with sources := timer.sources.filter (·.id ≠ id) }

def PlatformTimer.cancel (timer : PlatformTimer) : PlatformTimer :=
  if timer.timerId ≠ 0 then { timer.remove timer.timerId with timerId := 0 } else timer

def boundTimeout (timeout : Int) : Int :=
  let timeout := if 0x7FFFFFFF < timeout then 0x7FFFFFFF else timeout
  if timeout < 0x0000000A then 0x0000000A else timeout

def PlatformTimer.setNextFire (timer : PlatformTimer) (clock timeout : Int) : PlatformTimer :=
  let timer := timer.cancel
  { timer with
    sources := timer.sources ++ [⟨timer.latest + 1, clock + boundTimeout timeout, clock⟩]
    latest := timer.latest + 1 }

def State.rearmTimer (state : State) (clock : Int) (timer : PlatformTimer) : PlatformTimer :=
  match state.timerQueue with
  | [] => timer.cancel
  | first :: _ =>
      let nextFire := state.heap.deadline first - clock
      timer.setNextFire clock (if nextFire < 0 then 0 else nextFire)

def State.advanceRearms (state : State) (garbage : Int) : Bool :=
  match state.callbacks with
  | [] => false
  | ⟨_, []⟩ :: _ => true
  | ⟨now, timer :: _⟩ :: _ => match state.heap timer with
      | none => now < garbage
      | some call => if call.deadline ≤ now then call.repeats else true

def Call.rearms (state : State) : Call → Bool
  | .action (.construct ..) => true
  | .action (.destroy _) => true
  | .action (.callback now _ garbage) => (state.copied now).advanceRearms garbage
  | .action (.returns _ garbage) => state.advanceRearms garbage
  | .fire timer _ => (state.heap timer).any (·.repeats)

/-- `rearmed` is the time that `RearmTimer` reads, if it is called. -/
inductive Event
  | user (call : Call) (rearmed : Int)
  | onTimer (id : Nat) (now clock garbage rearmed : Int)
  deriving DecidableEq

structure Glib where
  state : State
  timer : PlatformTimer

def Glib.init : Glib := ⟨.init, .init⟩

def Glib.call (glib : Glib) (call : Call) (rearmed : Int) : Option Glib :=
  (glib.state.call call).map fun after =>
    ⟨after, if call.rearms glib.state then after.rearmTimer rearmed glib.timer else glib.timer⟩

def Glib.step (glib : Glib) : Event → Option Glib
  | .user (.action (.callback _ _ _)) _ => none
  | .user call rearmed => glib.call call rearmed
  | .onTimer id now clock garbage rearmed =>
      if id ∈ glib.timer.sources.map (·.id) then
        ({ glib with timer := glib.timer.remove id } : Glib).call
          (.action (.callback now clock garbage)) rearmed
      else none

structure OneSource (glib : Glib) : Prop where
  count : glib.timer.sources.length = if glib.state.timerQueue = [] then 0 else 1
  due : ∀ source ∈ glib.timer.sources, ∀ timer ∈ glib.state.timerQueue,
    source.due ≤ max (glib.state.heap.deadline timer) (source.added + 10)

/-- No call of `RearmTimer` finds a source that is pending. -/
def Event.Allowed (glib : Glib) : Event → Prop
  | .user call _ => call.rearms glib.state = true → glib.timer.sources = []
  | .onTimer .. => True

structure Lone (state : State) : Prop where
  intact : state.corrupted = false
  numbers : ∀ timer, state.heap timer ≠ none → timer.number < state.constructed
  live : ∀ timer ∈ state.timerQueue, state.heap timer ≠ none
  copies : ∀ frame ∈ state.callbacks, frame.rest = []
  few : state.timerQueue.length ≤ 1

structure Armed (state : State) (timer : PlatformTimer) : Prop where
  unnamed : timer.timerId = 0
  same : timer.sources.length = state.timerQueue.length
  due : ∀ source ∈ timer.sources, ∀ other ∈ state.timerQueue,
    source.due ≤ max (state.heap.deadline other) (source.added + 10)

section Rearm

variable {state after : State} {timer : PlatformTimer} {call : Call} {clock : Int}

theorem Lone.oneSource (lone : Lone state) (armed : Armed state timer) :
    OneSource ⟨state, timer⟩ := by
  refine ⟨?_, armed.due⟩
  have few := lone.few
  rw [armed.same]
  split
  · rename_i empty
    exact List.length_eq_zero_iff.mpr empty
  · rename_i some_
    have positive : 0 < state.timerQueue.length := List.length_pos_iff.mpr some_
    exact Nat.le_antisymm few positive

theorem Armed.idle_iff (armed : Armed state timer) :
    timer.sources = [] ↔ state.timerQueue = [] := by
  rw [← List.length_eq_zero_iff, armed.same, List.length_eq_zero_iff]

theorem cancel_unnamed (unnamed : timer.timerId = 0) : timer.cancel = timer := by
  rw [PlatformTimer.cancel, if_neg (not_not.mpr unnamed)]

theorem boundTimeout_le (timeout : Int) : boundTimeout timeout ≤ max timeout 10 := by
  rw [boundTimeout]
  split <;> split <;> omega

theorem Lone.rearm (lone : Lone state) (unnamed : timer.timerId = 0) (idle : timer.sources = [])
    (clock : Int) : Armed state (state.rearmTimer clock timer) := by
  have few := lone.few
  rw [State.rearmTimer]
  split
  · rename_i empty
    rw [cancel_unnamed unnamed]
    refine ⟨unnamed, ?_, ?_⟩
    · rw [idle, empty]
      rfl
    · rw [idle]
      exact fun source member => absurd member List.not_mem_nil
  · rename_i first rest queue
    rw [queue, List.length_cons] at few
    have alone : rest = [] := List.length_eq_zero_iff.mp (by omega)
    simp only [PlatformTimer.setNextFire, cancel_unnamed unnamed, idle, List.nil_append]
    refine ⟨unnamed, by rw [queue, alone]; rfl, ?_⟩
    intro source member other queued
    rw [queue, alone] at queued
    rw [List.mem_singleton.mp member, List.mem_singleton.mp queued]
    have bound := boundTimeout_le (if state.heap.deadline first - clock < 0 then 0
      else state.heap.deadline first - clock)
    have late : (if state.heap.deadline first - clock < 0 then 0
        else state.heap.deadline first - clock) ≤ max (state.heap.deadline first - clock) 0 := by
      split <;> omega
    simp only
    omega

theorem rearm_leaves (unnamed : timer.timerId = 0) (pending : timer.sources ≠ []) :
    ¬ OneSource ⟨state, state.rearmTimer clock timer⟩ := by
  rintro ⟨count, _⟩
  have positive := List.length_pos_iff.mpr pending
  rw [State.rearmTimer] at count
  split at count
  · rename_i empty
    rw [cancel_unnamed unnamed, if_pos empty] at count
    simp only at count
    omega
  · rename_i first rest queue
    have some_ : state.timerQueue ≠ [] := by
      rw [queue]
      exact List.cons_ne_nil _ _
    rw [if_neg some_] at count
    simp only [PlatformTimer.setNextFire, cancel_unnamed unnamed, List.length_append,
      List.length_singleton] at count
    omega

end Rearm

section Calls

variable {state after : State}

theorem Lone.construct (lone : Lone state) (empty : state.timerQueue = []) (address : Nat)
    (clock delay : Int) (repeats : Bool) :
    Lone (state.construct address clock delay repeats) where
  intact := lone.intact
  numbers timer present := by
    by_cases new : timer = ⟨address, state.constructed⟩
    · rw [new]
      exact Nat.lt_succ_self _
    · simp only [State.construct, Function.update_of_ne new] at present
      exact Nat.lt_succ_of_lt (lone.numbers timer present)
  live timer queued := by
    simp only [State.construct, empty, TimerQueue.insert] at queued ⊢
    rw [List.mem_singleton.mp queued, Function.update_self]
    exact Option.some_ne_none _
  copies := lone.copies
  few := by
    simp only [State.construct, empty, TimerQueue.insert]
    exact Nat.le_refl 1

theorem Lone.destroy (lone : Lone state) (empty : state.timerQueue = []) (timer : Pointer) :
    Lone (state.destroy timer) where
  intact := lone.intact
  numbers other present := by
    by_cases gone : other = timer
    · rw [gone] at present
      exact absurd (Function.update_self ..) present
    · simp only [State.destroy, Function.update_of_ne gone] at present
      exact lone.numbers other present
  live other queued := by
    simp [State.destroy, empty, TimerQueue.erase] at queued
  copies := lone.copies
  few := by simp [State.destroy, empty, TimerQueue.erase]

theorem Lone.fire (lone : Lone state) (empty : state.timerQueue = []) {timer : Pointer}
    {call : TimedCall} (present : state.heap timer = some call) (clock : Int) :
    Lone (state.fire clock timer call) := by
  rw [State.fire]
  split
  · refine ⟨lone.intact, fun other present' => ?_, fun other queued => ?_, lone.copies, ?_⟩
    · by_cases same : other = timer
      · rw [same]
        exact lone.numbers timer (by rw [present]; exact Option.some_ne_none call)
      · simp only [Function.update_of_ne same] at present'
        exact lone.numbers other present'
    · simp only [empty, TimerQueue.insert] at queued ⊢
      rw [List.mem_singleton.mp queued, Function.update_self]
      exact Option.some_ne_none _
    · simp only [empty, TimerQueue.insert]
      exact Nat.le_refl 1
  · exact lone

theorem Lone.returns (lone : Lone state) (some_ : state.callbacks ≠ []) (clock garbage : Int) :
    ∃ frame outer, state.callbacks = frame :: outer ∧ state.advanceRearms garbage = true ∧
      state.advance clock garbage = { state with callbacks := outer } := by
  obtain ⟨⟨now, rest⟩, outer, callbacks⟩ := List.exists_cons_of_ne_nil some_
  have ends : rest = [] := lone.copies ⟨now, rest⟩ (by rw [callbacks]; exact List.mem_cons_self)
  subst ends
  refine ⟨⟨now, []⟩, outer, callbacks, ?_, ?_⟩
  · simp only [State.advanceRearms, callbacks]
  · simp only [State.advance, callbacks]

theorem Lone.pop (lone : Lone state) {outer : List Frame} (inside : outer ⊆ state.callbacks) :
    Lone { state with callbacks := outer } :=
  ⟨lone.intact, lone.numbers, lone.live, fun frame member => lone.copies frame (inside member),
    lone.few⟩

theorem Lone.callback (lone : Lone state) (now clock garbage : Int) :
    Lone ((state.copied now).advance clock garbage) ∧
      ((state.copied now).advanceRearms garbage = false →
        ((state.copied now).advance clock garbage).timerQueue = []) := by
  have few := lone.few
  cases queue : state.timerQueue with
  | nil =>
      simp only [State.copied, queue, State.advance, State.advanceRearms]
      refine ⟨?_, fun rearms => absurd rearms Bool.noConfusion⟩
      rw [← queue]
      exact lone
  | cons timer rest =>
      rw [queue, List.length_cons] at few
      have alone : rest = [] := List.length_eq_zero_iff.mp (by omega)
      subst alone
      obtain ⟨call, present⟩ := Option.ne_none_iff_exists'.mp
        (lone.live timer (by rw [queue]; exact List.mem_cons_self))
      have taken : TimerQueue.erase state.heap timer [timer] = [] := by
        simp [TimerQueue.erase, lessThan_irrefl]
      simp only [State.copied, queue, State.advance, State.advanceRearms, present, taken]
      split
      · have erased : Lone { state with
            timerQueue := []
            callbacks := ⟨now, []⟩ :: state.callbacks
            fired := state.fired ++ [⟨timer, true, timer ∈ [timer], call.repeats⟩] } :=
          ⟨lone.intact, lone.numbers, fun _ queued => absurd queued List.not_mem_nil,
            List.forall_mem_cons.mpr ⟨rfl, lone.copies⟩, Nat.zero_le 1⟩
        refine ⟨erased.fire rfl present clock, fun once => ?_⟩
        rw [State.fire, once, if_neg Bool.false_ne_true]
      · rw [← queue]
        exact ⟨lone, fun rearms => absurd rearms Bool.noConfusion⟩

end Calls

theorem Glib.call_some {glib after : Glib} {call : Call} {rearmed : Int}
    (moved : glib.call call rearmed = some after) :
    ∃ state, glib.state.call call = some state ∧ after = ⟨state,
      if call.rearms glib.state then state.rearmTimer rearmed glib.timer else glib.timer⟩ := by
  rw [Glib.call, Option.map_eq_some_iff] at moved
  obtain ⟨state, moved, rfl⟩ := moved
  exact ⟨state, moved, rfl⟩

theorem Glib.user_some {glib after : Glib} {call : Call} {rearmed : Int}
    (moved : glib.step (.user call rearmed) = some after) :
    glib.call call rearmed = some after ∧
      ∀ now clock garbage, call ≠ .action (.callback now clock garbage) := by
  rw [Glib.step.eq_def] at moved
  split at moved
  · cases moved
  · rename_i other event
    cases event
    exact ⟨moved, fun now clock garbage same => other now clock garbage same⟩
  · rename_i event
    cases event

theorem Lone.called {state after : State} (lone : Lone state) {call : Call}
    (user : ∀ now clock garbage, call ≠ .action (.callback now clock garbage))
    (idle : call.rearms state = true → state.timerQueue = [])
    (moved : state.call call = some after) :
    Lone after ∧ (call.rearms state = false → after = state) := by
  cases call with
  | fire timer clock =>
      obtain ⟨call, present, rfl⟩ := call_fire moved
      simp only [Call.rearms, present, Option.any_some] at idle ⊢
      by_cases repeats : call.repeats = true
      · refine ⟨lone.fire (idle repeats) present clock, fun once => ?_⟩
        rw [repeats] at once
        cases once
      · rw [State.fire, if_neg repeats]
        exact ⟨lone, fun _ => rfl⟩
  | action action =>
      rw [State.call] at moved
      cases action with
      | construct address clock delay repeats =>
          rw [step_construct moved]
          exact ⟨lone.construct (idle rfl) address clock delay repeats, Bool.noConfusion⟩
      | destroy timer =>
          rw [step_destroy moved]
          exact ⟨lone.destroy (idle rfl) timer, Bool.noConfusion⟩
      | callback now clock garbage => exact absurd rfl (user now clock garbage)
      | returns clock garbage =>
          obtain ⟨inside, returned⟩ := step_returns moved
          obtain ⟨frame, outer, callbacks, rearms, ends⟩ := lone.returns inside clock garbage
          rw [returned, ends]
          refine ⟨lone.pop ?_, fun idles => ?_⟩
          · rw [callbacks]
            exact List.subset_cons_self frame outer
          · rw [Call.rearms, rearms] at idles
            cases idles

theorem Lone.user {glib after : Glib} (lone : Lone glib.state) (armed : Armed glib.state glib.timer)
    {call : Call} {rearmed : Int} (moved : glib.step (.user call rearmed) = some after)
    (allowed : call.rearms glib.state = true → glib.timer.sources = []) :
    Lone after.state ∧ Armed after.state after.timer := by
  obtain ⟨called, user⟩ := Glib.user_some moved
  obtain ⟨state, ran, rfl⟩ := Glib.call_some called
  have called := lone.called user (fun rearms => armed.idle_iff.mp (allowed rearms)) ran
  refine ⟨called.1, ?_⟩
  by_cases rearms : call.rearms glib.state = true
  · simp only [if_pos rearms]
    exact called.1.rearm armed.unnamed (allowed rearms) rearmed
  · simp only [if_neg rearms, called.2 ((Bool.not_eq_true _).mp rearms)]
    exact armed

theorem Lone.onTimer {glib after : Glib} (lone : Lone glib.state)
    (armed : Armed glib.state glib.timer) {id : Nat} {now clock garbage rearmed : Int}
    (moved : glib.step (.onTimer id now clock garbage rearmed) = some after) :
    Lone after.state ∧ Armed after.state after.timer := by
  simp only [Glib.step, Option.ite_none_right_eq_some] at moved
  obtain ⟨pending, called⟩ := moved
  have removed : (glib.timer.remove id).sources = [] := by
    obtain ⟨source, member, rfl⟩ := List.mem_map.mp pending
    have positive := List.length_pos_of_mem member
    have few := lone.few
    rw [← armed.same] at few
    obtain ⟨only, sources⟩ := List.length_eq_one_iff.mp (Nat.le_antisymm few positive)
    rw [sources, List.mem_singleton] at member
    simp [PlatformTimer.remove, sources, member]
  obtain ⟨state, ran, rfl⟩ := Glib.call_some called
  rw [State.call] at ran
  obtain ⟨lone', idle⟩ := lone.callback now clock garbage
  rw [← step_callback ran] at lone' idle
  refine ⟨lone', ?_⟩
  have unnamed : (glib.timer.remove id).timerId = 0 := armed.unnamed
  by_cases rearms : Call.rearms glib.state (.action (.callback now clock garbage)) = true
  · simp only [if_pos rearms]
    exact lone'.rearm unnamed removed rearmed
  · have empty := idle ((Bool.not_eq_true _).mp rearms)
    simp only [if_neg rearms]
    refine ⟨unnamed, ?_, ?_⟩
    · rw [removed, empty]
      rfl
    · rw [removed]
      exact fun source member => absurd member List.not_mem_nil

theorem init_lone : Lone .init where
  intact := rfl
  numbers _ present := absurd rfl present
  live _ queued := absurd queued List.not_mem_nil
  copies _ member := absurd member List.not_mem_nil
  few := Nat.zero_le 1

theorem init_armed : Armed .init .init where
  unnamed := rfl
  same := rfl
  due _ member := absurd member List.not_mem_nil

theorem one_source_pending {glib : Glib}
    (reach : Lib.Reachable Glib.step (fun glib event => event.Allowed glib) .init glib) :
    OneSource glib ∧ ∀ event after, glib.step event = some after →
      (OneSource after ↔ event.Allowed glib) := by
  have keeps {glib after : Glib} {event : Event} (moved : glib.step event = some after)
      (allowed : event.Allowed glib) (both : Lone glib.state ∧ Armed glib.state glib.timer) :
      Lone after.state ∧ Armed after.state after.timer := by
    cases event with
    | user call rearmed => exact both.1.user both.2 moved allowed
    | onTimer id now clock garbage rearmed => exact both.1.onTimer both.2 moved
  have both : Lone glib.state ∧ Armed glib.state glib.timer := by
    induction reach with
    | start => exact ⟨init_lone, init_armed⟩
    | next _ allowed moved ih => exact keeps moved allowed ih
  refine ⟨both.1.oneSource both.2, fun event after moved => ⟨fun oneSource => ?_, fun allowed => ?_⟩⟩
  · cases event with
    | user call rearmed =>
        obtain ⟨called, _⟩ := Glib.user_some moved
        obtain ⟨state, _, rfl⟩ := Glib.call_some called
        intro rearms
        by_contra pending
        rw [if_pos rearms] at oneSource
        exact rearm_leaves both.2.unnamed pending oneSource
    | onTimer => trivial
  · have after' := keeps moved allowed both
    exact after'.1.oneSource after'.2

instance (glib : Glib) (event : Event) : Decidable (event.Allowed glib) :=
  match event with
  | .user call _ =>
      inferInstanceAs (Decidable (call.rearms glib.state = true → glib.timer.sources = []))
  | .onTimer .. => inferInstanceAs (Decidable True)

def oneAtATime : List Event :=
  [.user (.action (.construct 1 0 25 false)) 0, .onTimer 1 25 25 0 25,
    .user (.action (.returns 25 0)) 25, .user (.action (.destroy ⟨1, 0⟩)) 26,
    .user (.action (.construct 2 30 5 true)) 30, .onTimer 2 40 40 0 40]

def oneAtATimeAtEnd : Glib :=
  Lib.final Glib.step (fun glib event => event.Allowed glib) .init oneAtATime (by decide +kernel)

theorem one_at_a_time_pending : oneAtATimeAtEnd.timer.sources = [⟨3, 50, 40⟩] ∧
    OneSource oneAtATimeAtEnd := by
  have reach : Lib.Reachable Glib.step (fun glib event => event.Allowed glib) .init
      oneAtATimeAtEnd := Lib.reachable_final oneAtATime (by decide +kernel)
  exact ⟨by decide +kernel, (one_source_pending reach).1⟩

def twoTimers : Glib :=
  Lib.final Glib.step Lib.anyAction .init
    [.user (.action (.construct 1 0 100 false)) 0, .user (.action (.construct 2 0 200 false)) 0]
    (by decide +kernel)

theorem two_timers_leave_two_sources :
    Lib.Reachable Glib.step Lib.anyAction .init twoTimers ∧
      twoTimers.timer.sources = [⟨1, 100, 0⟩, ⟨2, 100, 0⟩] ∧ ¬ OneSource twoTimers := by
  have sources : twoTimers.timer.sources = [⟨1, 100, 0⟩, ⟨2, 100, 0⟩] := by decide +kernel
  have some_ : twoTimers.state.timerQueue ≠ [] := by decide +kernel
  refine ⟨Lib.reachable_final _ _, sources, ?_⟩
  rintro ⟨count, _⟩
  rw [sources, if_neg some_] at count
  cases count

end ThreadIpc.TimerSingleton

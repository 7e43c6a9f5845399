import ThreadIpc.TimerSingleton.Reach

/-!
# The order of the queue

The deadline that the queue is ordered by is a part of the timer, and `Fire` changes it. `Callback`
takes a timer out of the queue before it fires it; nothing keeps others from firing one that is in
there. What a `std::set` does whose keys have changed is left open: that run ends there.
-/

namespace ThreadIpc.TimerSingleton

/-- The search of a `std::set`, which knows nothing but the comparison. -/
def TimerQueue.find (heap : Heap) (timer : Pointer) (queue : TimerQueue) : Option Pointer :=
  (queue.find? fun other => !heap.lessThan other timer).filter fun other =>
    !heap.lessThan timer other

inductive Call
  | action (action : Action)
  /-- `Fire` is public. -/
  | fire (timer : Pointer) (clock : Int)
  deriving DecidableEq

def State.call (state : State) : Call → Option State
  | .action action => step state action
  | .fire timer clock =>
      if state.corrupted then none else (state.heap timer).map (state.fire clock timer)

def State.firing (state : State) : Option (Pointer × TimedCall) :=
  match state.callbacks with
  | ⟨now, timer :: _⟩ :: _ =>
      (state.heap timer).bind fun call => if call.deadline ≤ now then some (timer, call) else none
  | _ => none

/-- What is watched of a run: which timers should be in the queue, and whether the deadline of one
that is in there has changed. -/
structure Watch where
  scheduled : Pointer → Bool
  rekeyed : Bool

def Watch.init : Watch := ⟨fun _ => false, false⟩

def Watch.insert (watch : Watch) (timer : Pointer) : Watch :=
  { watch with scheduled := Function.update watch.scheduled timer true }

def Watch.erase (watch : Watch) (timer : Pointer) : Watch :=
  { watch with scheduled := Function.update watch.scheduled timer false }

def Watch.fire (watch : Watch) (queue : TimerQueue) (clock : Int) (timer : Pointer)
    (call : TimedCall) : Watch :=
  if call.repeats then
    { watch.insert timer with
      rekeyed := watch.rekeyed || (timer ∈ queue && call.deadline ≠ clock + call.delay) }
  else watch

def Watch.advance (watch : Watch) (state : State) (clock : Int) : Watch :=
  match state.firing with
  | none => watch
  | some (timer, call) =>
      (watch.erase timer).fire (TimerQueue.erase state.heap timer state.timerQueue) clock timer call

def Watch.call (watch : Watch) (state : State) : Call → Watch
  | .action (.construct address _ _ _) => watch.insert ⟨address, state.constructed⟩
  | .action (.destroy timer) => watch.erase timer
  | .action (.callback now clock _) => watch.advance (state.copied now) clock
  | .action (.returns clock _) => watch.advance state clock
  | .fire timer clock =>
      match state.heap timer with
      | none => watch
      | some call => watch.fire state.timerQueue clock timer call

structure Watched where
  state : State
  watch : Watch

def Watched.init : Watched := ⟨.init, .init⟩

def Watched.step (watched : Watched) (call : Call) : Option Watched :=
  if watched.watch.rekeyed then none
  else (watched.state.call call).map fun after => ⟨after, watched.watch.call watched.state call⟩

structure Ordered (watched : Watched) : Prop where
  intact : watched.state.corrupted = false
  sorted : watched.state.timerQueue.Pairwise fun a b => watched.state.heap.lessThan a b = true
  once : watched.state.timerQueue.Nodup
  exactly : ∀ timer, timer ∈ watched.state.timerQueue ↔ watched.watch.scheduled timer = true
  live : ∀ timer ∈ watched.state.timerQueue, watched.state.heap timer ≠ none
  unchanged : watched.watch.rekeyed = false
  found : ∀ timer ∈ watched.state.timerQueue,
    TimerQueue.find watched.state.heap timer watched.state.timerQueue = some timer

/-- Nobody fires a repeating timer that is in the queue, unless its deadline stays what it is, and
no callback leaves a `Callback` in progress with a timer that is destroyed but looks due. -/
def Call.Allowed (state : State) : Call → Prop
  | .fire timer clock => ∀ call ∈ state.heap timer, call.repeats = true →
      timer ∈ state.timerQueue → call.deadline = clock + call.delay
  | .action (.returns _ garbage) =>
      match state.callbacks with
      | ⟨now, timer :: _⟩ :: _ => state.heap timer = none → now < garbage
      | _ => True
  | _ => True

section Set

variable {heap : Heap} {timer a b c : Pointer} {queue : TimerQueue}

theorem lessThan_trans (ab : heap.lessThan a b = true) (bc : heap.lessThan b c = true) :
    heap.lessThan a c = true := by
  simp only [Heap.lessThan] at ab bc ⊢
  grind

theorem lessThan_asymm (ab : heap.lessThan a b = true) : heap.lessThan b a = false := by
  by_contra ba
  have loop := lessThan_trans ab ((Bool.not_eq_false _).mp ba)
  rw [lessThan_irrefl] at loop
  exact Bool.false_ne_true loop

def Sorted (heap : Heap) (queue : TimerQueue) : Prop :=
  queue.Pairwise fun a b => heap.lessThan a b = true

theorem Sorted.nodup (sorted : Sorted heap queue) : queue.Nodup := by
  refine List.Pairwise.imp ?_ sorted
  rintro a b ab rfl
  rw [lessThan_irrefl] at ab
  exact Bool.false_ne_true ab

theorem Sorted.insert (sorted : Sorted heap queue) :
    Sorted heap (TimerQueue.insert heap timer queue) := by
  induction queue with
  | nil => exact List.pairwise_singleton _ timer
  | cons first rest ih =>
      obtain ⟨before, behind⟩ := List.pairwise_cons.mp sorted
      rw [TimerQueue.insert]
      split
      · rename_i less
        refine List.pairwise_cons.mpr ⟨?_, sorted⟩
        rw [List.forall_mem_cons]
        exact ⟨less, fun other member => lessThan_trans less (before other member)⟩
      · split
        · rename_i _ less
          refine List.pairwise_cons.mpr ⟨fun other member => ?_, ih behind⟩
          rcases mem_insert.mp member with rfl | member
          · exact less
          · exact before other member
        · exact sorted

theorem Sorted.insert_of_mem (sorted : Sorted heap queue) (member : timer ∈ queue) :
    TimerQueue.insert heap timer queue = queue := by
  induction queue with
  | nil => cases member
  | cons first rest ih =>
      obtain ⟨before, behind⟩ := List.pairwise_cons.mp sorted
      rw [TimerQueue.insert]
      rcases List.mem_cons.mp member with rfl | later
      · simp [lessThan_irrefl]
      · have less := before timer later
        simp [lessThan_asymm less, less, ih behind later]

theorem Sorted.find (sorted : Sorted heap queue) (member : timer ∈ queue) :
    TimerQueue.find heap timer queue = some timer := by
  induction queue with
  | nil => cases member
  | cons first rest ih =>
      obtain ⟨before, behind⟩ := List.pairwise_cons.mp sorted
      rcases List.mem_cons.mp member with rfl | later
      · simp [TimerQueue.find, lessThan_irrefl]
      · have less := before timer later
        have found := ih behind later
        rw [TimerQueue.find] at found ⊢
        rw [List.find?_cons_of_neg (by simp [less])]
        exact found

theorem Sorted.congr {heap' : Heap} (sorted : Sorted heap queue)
    (same : ∀ timer ∈ queue, heap'.deadline timer = heap.deadline timer) : Sorted heap' queue := by
  refine List.Pairwise.imp_of_mem ?_ sorted
  intro a b memberA memberB less
  simp only [Heap.lessThan] at less ⊢
  rw [same a memberA, same b memberB]
  exact less

theorem Sorted.erase (sorted : Sorted heap queue) : Sorted heap (TimerQueue.erase heap timer queue) :=
  sorted.filter _

end Set

structure Kept (state : State) (watch : Watch) : Prop where
  intact : state.corrupted = false
  numbers : ∀ timer, state.heap timer ≠ none → timer.number < state.constructed
  sorted : Sorted state.heap state.timerQueue
  exactly : ∀ timer, timer ∈ state.timerQueue ↔ watch.scheduled timer = true
  live : ∀ timer ∈ state.timerQueue, state.heap timer ≠ none
  unchanged : watch.rekeyed = false

section Steps

variable {state after : State} {watch : Watch} {timer : Pointer} {call : TimedCall} {clock : Int}

theorem Kept.ordered (kept : Kept state watch) : Ordered ⟨state, watch⟩ where
  intact := kept.intact
  sorted := kept.sorted
  once := kept.sorted.nodup
  exactly := kept.exactly
  live := kept.live
  unchanged := kept.unchanged
  found _ member := kept.sorted.find member

theorem init_kept : Kept .init .init where
  intact := rfl
  numbers _ present := absurd rfl present
  sorted := List.Pairwise.nil
  exactly _ := by simp [State.init, Watch.init]
  live _ member := absurd member List.not_mem_nil
  unchanged := rfl

theorem Kept.frames (kept : Kept state watch) (callbacks : List Frame) (fired : List Fired) :
    Kept { state with callbacks, fired } watch :=
  ⟨kept.intact, kept.numbers, kept.sorted, kept.exactly, kept.live, kept.unchanged⟩

theorem Kept.erase (kept : Kept state watch) (timer : Pointer) :
    Kept { state with timerQueue := TimerQueue.erase state.heap timer state.timerQueue }
      (watch.erase timer) where
  intact := kept.intact
  numbers := kept.numbers
  sorted := kept.sorted.erase
  exactly other := by
    rw [mem_erase, kept.exactly, Watch.erase]
    by_cases same : other = timer
    · simp [same]
    · simp [same]
  live other member := kept.live other (mem_erase.mp member).1
  unchanged := kept.unchanged

theorem Kept.insert (kept : Kept state watch) (absent : timer ∉ state.timerQueue)
    (call : TimedCall) {constructed : Nat} (more : state.constructed ≤ constructed)
    (number : timer.number < constructed) :
    Kept { state with
        heap := Function.update state.heap timer (some call)
        constructed
        timerQueue := TimerQueue.insert (Function.update state.heap timer (some call)) timer
          state.timerQueue }
      (watch.insert timer) where
  intact := kept.intact
  numbers other present := by
    by_cases same : other = timer
    · rw [same]
      exact number
    · simp only [Function.update_of_ne same] at present
      exact Nat.lt_of_lt_of_le (kept.numbers other present) more
  sorted := by
    apply Sorted.insert
    apply kept.sorted.congr
    intro other member
    have different : other ≠ timer := fun same => absent (same ▸ member)
    simp only [Heap.deadline, Function.update_of_ne different]
  exactly other := by
    rw [mem_insert, kept.exactly, Watch.insert]
    by_cases same : other = timer
    · simp [same]
    · simp [same]
  live other member := by
    rcases mem_insert.mp member with rfl | member
    · simp
    · by_cases same : other = timer
      · simp [same]
      · simp only [Function.update_of_ne same]
        exact kept.live other member
  unchanged := kept.unchanged

theorem Kept.fire (kept : Kept state watch) (present : state.heap timer = some call)
    (keeps : call.repeats = true → timer ∈ state.timerQueue →
      call.deadline = clock + call.delay) :
    Kept (state.fire clock timer call) (watch.fire state.timerQueue clock timer call) := by
  rw [State.fire, Watch.fire]
  by_cases repeats : call.repeats = true
  · rw [if_pos repeats, if_pos repeats]
    have number := kept.numbers timer (by rw [present]; exact Option.some_ne_none call)
    by_cases member : timer ∈ state.timerQueue
    · have same := keeps repeats member
      have heap : Function.update state.heap timer
          (some { call with deadline := clock + call.delay }) = state.heap := by
        rw [← same, ← present, Function.update_eq_self]
      have scheduled : Function.update watch.scheduled timer true = watch.scheduled := by
        rw [← (kept.exactly timer).mp member, Function.update_eq_self]
      simp only [heap, kept.sorted.insert_of_mem member, Watch.insert, scheduled, same,
        ne_eq, not_true_eq_false, decide_false, Bool.and_false, Bool.or_false]
      exact kept
    · have inserted := kept.insert member { call with deadline := clock + call.delay }
        (Nat.le_refl _) number
      simp only [member, decide_false, Bool.false_and, Bool.or_false]
      exact inserted
  · rw [if_neg repeats, if_neg repeats]
    exact kept

theorem firing_eq {now : Int} {rest : List Pointer} {outer : List Frame}
    (innermost : state.callbacks = ⟨now, timer :: rest⟩ :: outer)
    (present : state.heap timer = some call) :
    state.firing = if call.deadline ≤ now then some (timer, call) else none := by
  simp only [State.firing, innermost, present, Option.bind_some]

theorem Kept.advance (kept : Kept state watch) {garbage : Int}
    (readable : ∀ now timer rest outer, state.callbacks = ⟨now, timer :: rest⟩ :: outer →
      state.heap timer = none → now < garbage) :
    Kept (state.advance clock garbage) (watch.advance state clock) := by
  rw [State.advance]
  split
  · rename_i none_
    rw [Watch.advance, State.firing]
    simp only [none_]
    exact kept
  · rename_i innermost
    rw [Watch.advance, State.firing]
    simp only [innermost]
    exact kept.frames _ _
  · rename_i now timer rest outer innermost
    split
    · rename_i gone
      have later := readable now timer rest outer innermost gone
      rw [Watch.advance, State.firing, if_neg (Int.not_le.mpr later)]
      simp only [innermost, gone, Option.bind_none]
      exact kept.frames _ _
    · rename_i call present
      rw [Watch.advance, firing_eq innermost present]
      split
      · have erased := (kept.erase timer).frames (⟨now, rest⟩ :: outer)
          (state.fired ++ [⟨timer, true, timer ∈ state.timerQueue, call.repeats⟩])
        apply Kept.fire erased present
        intro _ member
        exact absurd rfl (mem_erase.mp member).2
      · exact kept.frames _ _

theorem Kept.construct (kept : Kept state watch) (address : Nat) (clock delay : Int)
    (repeats : Bool) : Kept (state.construct address clock delay repeats)
      (watch.insert ⟨address, state.constructed⟩) := by
  apply kept.insert _ _ (Nat.le_succ _) (Nat.lt_succ_self _)
  intro member
  exact absurd (kept.numbers _ (kept.live _ member)) (Nat.lt_irrefl _)

theorem Kept.destroy (kept : Kept state watch) (timer : Pointer) :
    Kept (state.destroy timer) (watch.erase timer) := by
  have erased := kept.erase timer
  have same (other : Pointer) (member : other ∈ TimerQueue.erase state.heap timer state.timerQueue) :
      (state.destroy timer).heap other = state.heap other :=
    Function.update_of_ne (mem_erase.mp member).2 ..
  refine ⟨kept.intact, fun other present => ?_, ?_, erased.exactly, fun other member => ?_,
    kept.unchanged⟩
  · by_cases gone : other = timer
    · rw [gone] at present
      exact absurd (Function.update_self ..) present
    · have unchanged : (state.destroy timer).heap other = state.heap other :=
        Function.update_of_ne gone ..
      rw [unchanged] at present
      exact kept.numbers other present
  · apply erased.sorted.congr
    intro other member
    rw [Heap.deadline, Heap.deadline, same other member]
  · rw [same other member]
    exact erased.live other member

theorem call_fire {timer : Pointer} {clock : Int}
    (moved : state.call (.fire timer clock) = some after) :
    ∃ call, state.heap timer = some call ∧ after = state.fire clock timer call := by
  simp only [State.call, Option.ite_none_left_eq_some, Option.map_eq_some_iff] at moved
  obtain ⟨_, call, present, rfl⟩ := moved
  exact ⟨call, present, rfl⟩

theorem Kept.called (kept : Kept state watch) {call : Call} (allowed : call.Allowed state)
    (moved : state.call call = some after) : Kept after (watch.call state call) := by
  cases call with
  | fire timer clock =>
      obtain ⟨call, present, rfl⟩ := call_fire moved
      simp only [Watch.call, present]
      exact kept.fire present (allowed call present)
  | action action =>
      rw [State.call] at moved
      cases action with
      | construct address clock delay repeats =>
          rw [step_construct moved]
          exact kept.construct address clock delay repeats
      | destroy timer =>
          rw [step_destroy moved]
          exact kept.destroy timer
      | callback now clock garbage =>
          rw [step_callback moved]
          have copied : Kept (state.copied now) watch := kept.frames _ _
          apply copied.advance
          intro now' timer rest outer innermost gone
          have queued : timer ∈ state.timerQueue := by
            obtain ⟨_, copy⟩ := Frame.mk.inj (List.cons.inj innermost).1
            rw [copy]
            exact List.mem_cons_self
          exact absurd gone (kept.live timer queued)
      | returns clock garbage =>
          rw [(step_returns moved).2]
          apply kept.advance
          intro now timer rest outer innermost gone
          simp only [Call.Allowed, innermost] at allowed
          exact allowed gone

end Steps

theorem Kept.step {watched after : Watched} (kept : Kept watched.state watched.watch) {call : Call}
    (allowed : call.Allowed watched.state) (moved : watched.step call = some after) :
    Kept after.state after.watch := by
  rw [Watched.step, kept.unchanged, if_neg Bool.false_ne_true, Option.map_eq_some_iff] at moved
  obtain ⟨state, moved, rfl⟩ := moved
  exact kept.called allowed moved

/-- A step that is not allowed changes a deadline in the queue or uses freed memory. -/
theorem Ordered.allowed {watched after : Watched} {call : Call}
    (moved : watched.step call = some after) (ordered : Ordered after) :
    call.Allowed watched.state := by
  rw [Watched.step, Option.ite_none_left_eq_some, Option.map_eq_some_iff] at moved
  obtain ⟨_, state, moved, rfl⟩ := moved
  cases call with
  | fire timer clock =>
      intro call present repeats member
      by_contra changed
      have present' : watched.state.heap timer = some call := present
      have rekeyed := ordered.unchanged
      simp [Watch.call, present', Watch.fire, repeats, member, changed] at rekeyed
  | action action =>
      cases action with
      | construct | destroy | callback => trivial
      | returns clock garbage =>
          rw [Call.Allowed]
          split
          · rename_i now timer rest outer innermost
            intro gone
            by_contra due
            have corrupted := ordered.intact
            simp only [(step_returns moved).2, State.advance] at corrupted
            simp [innermost, gone, Int.not_lt.mp due] at corrupted
          · trivial

theorem timer_queue_ordered {watched : Watched} (reach : Lib.Reachable Watched.step
      (fun watched call => call.Allowed watched.state) .init watched) :
    Ordered watched ∧ ∀ call after, watched.step call = some after →
      (Ordered after ↔ call.Allowed watched.state) := by
  have kept : Kept watched.state watched.watch := by
    induction reach with
    | start => exact init_kept
    | next _ allowed moved ih => exact ih.step allowed moved
  refine ⟨kept.ordered, fun call after moved => ⟨fun ordered => ordered.allowed moved, ?_⟩⟩
  exact fun allowed => (kept.step allowed moved).ordered

theorem returns_allowed_iff {state : State} {clock garbage : Int} :
    (Call.action (.returns clock garbage)).Allowed state ↔
      ∀ frame ∈ state.callbacks.head?, ∀ timer ∈ frame.rest.head?,
        state.heap timer = none → frame.now < garbage := by
  rw [Call.Allowed]
  rcases state.callbacks with _ | ⟨⟨now, _ | ⟨timer, rest⟩⟩, outer⟩ <;> simp

instance (state : State) (call : Call) : Decidable (call.Allowed state) :=
  match call with
  | .fire timer clock => inferInstanceAs (Decidable (∀ call ∈ state.heap timer,
      call.repeats = true → timer ∈ state.timerQueue → call.deadline = clock + call.delay))
  | .action (.returns _ _) => decidable_of_iff _ returns_allowed_iff.symm
  | .action (.construct ..) | .action (.destroy _) | .action (.callback ..) =>
      inferInstanceAs (Decidable True)

/-- A repeating timer goes through the queue twice, and another one fires it where it may. -/
def orderedRun : List Call :=
  [.action (.construct 1 0 5 true), .action (.construct 2 0 8 false), .fire ⟨1, 0⟩ 0,
    .action (.callback 6 6 0), .action (.construct 3 6 1 false), .action (.returns 6 0),
    .fire ⟨2, 1⟩ 7, .action (.callback 12 12 0), .action (.returns 12 0),
    .action (.destroy ⟨2, 1⟩), .action (.returns 12 0)]

def orderedAtEnd : Watched :=
  Lib.final Watched.step (fun watched call => call.Allowed watched.state) .init orderedRun
    (by decide +kernel)

theorem ordered_at_end : orderedAtEnd.state.timerQueue = [⟨1, 0⟩] ∧ Ordered orderedAtEnd := by
  have reach : Lib.Reachable Watched.step (fun watched call => call.Allowed watched.state) .init
      orderedAtEnd := Lib.reachable_final orderedRun (by decide +kernel)
  exact ⟨by decide +kernel, (timer_queue_ordered reach).1⟩

def twoQueued : Watched :=
  Lib.final Watched.step Lib.anyAction .init
    [.action (.construct 1 0 10 true), .action (.construct 2 0 20 false)] (by decide +kernel)

/-- The first of two timers is fired by hand, which changes its deadline in the queue. -/
theorem fired_by_hand_changes_deadline :
    Lib.Reachable Watched.step Lib.anyAction .init twoQueued ∧
      ⟨1, 0⟩ ∈ twoQueued.state.timerQueue ∧ twoQueued.state.heap.deadline ⟨1, 0⟩ = 10 ∧
      ∃ after, twoQueued.step (.fire ⟨1, 0⟩ 100) = some after ∧
        after.state.heap.deadline ⟨1, 0⟩ = 110 ∧ ¬ Ordered after := by
  have fires : (twoQueued.step (.fire ⟨1, 0⟩ 100)).isSome = true ∧
      ∀ after ∈ twoQueued.step (.fire ⟨1, 0⟩ 100),
        after.state.heap.deadline ⟨1, 0⟩ = 110 ∧ after.watch.rekeyed = true := by
    decide +kernel
  obtain ⟨after, moved⟩ := Option.isSome_iff_exists.mp fires.1
  obtain ⟨later, rekeyed⟩ := fires.2 after moved
  refine ⟨Lib.reachable_final _ _, by decide +kernel, by decide +kernel, after, moved, later,
    fun ordered => ?_⟩
  cases rekeyed.symm.trans ordered.unchanged

end ThreadIpc.TimerSingleton
